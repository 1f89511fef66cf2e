import DevKota.Lab2Read
import DevKota.CTokens

/-! The lab2 command-line client: how the outcome of `ktimer -s` relates to what the driver does. -/
namespace DevKota.Lab2
open CString Kernel Runs

/-- A program argument. -/
structure Arg where
  text : List Byte
  text_zero : 0 ∉ text

/-- `"The timer %s was updated!\n"`. -/
def updatedText (msg : Arg) : List Byte := ascii "The timer " ++ msg.text ++ ascii " was updated!\n"

/-- `"%d timer(s) already exist(s)!\n"`. -/
def existText (maxTimers : ℕ) : List Byte := decimal maxTimers ++ ascii " timer(s) already exist(s)!\n"

/-- What a run of the client leaves: the driver, the texts printed, and whether it exits with
`EXIT_SUCCESS`. -/
structure Outcome where
  driver : Driver
  printed : List (List Byte)
  success : Bool

/-- `"%s %s"` with `argv[2]` and `argv[3]`. -/
def setText (sec msg : Arg) : List Byte := sec.text ++ ascii " " ++ msg.text

/-- Formatting a set command into `buffer`, and the write of the string there. -/
def sendSet (cfg : Config) (now : ℕ) (d : Driver) (buffer : Buffer 128) (sec msg : Arg)
    (alloc : Bool) : Option (Buffer 128 × Driver × ℤ) :=
  let buffer := buffer.snprintf 0 (setText sec msg)
  (d.timerWrite cfg now ⟨cstr buffer.bytes, true⟩ alloc).map fun r => (buffer, r)

/-- The `-s` branch from its check for room on. The flag is the one that was read at first. -/
def finishSet (cfg : Config) (now : ℕ) (d : Driver) (buffer : Buffer 128) (hasRoom : Byte)
    (bytesRead : ℕ) (sec msg : Arg) (alloc : Bool) (printed : List (List Byte)) : Option Outcome :=
  if hasRoom = 48 then
    -- the lines are counted in whatever `buffer` holds by now
    some ⟨d, printed ++ [existText ((buffer.bytes.take bytesRead).count 10)], false⟩
  else
    (sendSet cfg now d buffer sec msg alloc).map fun r => ⟨r.2.1, printed, decide (0 ≤ r.2.2)⟩

/-- The `-s` branch, with the outcomes of the allocations: two for the read, one for each write.
`none` stands for a run that leaves an array or lets the driver touch memory it does not own. -/
def clientSet (cfg : Config) (now : ℕ) (d : Driver) (buffer : Buffer 128) (sec msg : Arg)
    (alloc alloc' alloc1 alloc2 : Bool) : Option Outcome :=
  (clientRead cfg now d alloc alloc').bind fun r =>
    (setDecode buffer r.bytes).bind fun p =>
      if strstr (cstr p.2.bytes) msg.text then
        (sendSet cfg now d p.2 sec msg alloc1).bind fun q =>
          if q.2.2 < 0 then some ⟨q.2.1, [], false⟩
          else
            finishSet cfg now q.2.1 q.1 p.1 r.bytes.length sec msg alloc2 [updatedText msg]
      else finishSet cfg now d p.2 p.1 r.bytes.length sec msg alloc2 []

/-- Some active timer of the table has the message. -/
def HasMessage (d : Driver) (m : List Byte) : Prop :=
  ∃ t, ∃ i : ℕ, ∃ s, d.gTimers = some t ∧ (i:ℤ) < d.gNumTimers ∧ d.slot t i = some s ∧ s.Active ∧
    d.deref s.message = some m

/-- No slot of the table is free. -/
def NoneFree (d : Driver) : Prop :=
  ∀ (t i : ℕ) (s : MsgTimer), d.gTimers = some t → (i:ℤ) < d.gNumTimers → d.slot t i = some s →
    s.Active

/-- The slot at a place was free and holds the timer `s` now. -/
def NewTimer (d d' : Driver) (t i : ℕ) (s : MsgTimer) : Prop :=
  (∃ s0, d.slot t i = some s0 ∧ ¬ s0.Active) ∧ d'.slot t i = some s ∧ s.Active

def Outcome.Updated (o : Outcome) (msg : Arg) : Prop := updatedText msg ∈ o.printed

def Outcome.Refused (o : Outcome) : Prop :=
  (∃ maxTimers, existText maxTimers ∈ o.printed) ∧ o.success = false

/-- The outcome agrees with what the driver held before: an update for a message it has, a
refusal for a new message without a free slot, and a new timer with that message otherwise; and
never two of these. -/
structure SetAgrees (d : Driver) (msg : Arg) (o : Outcome) : Prop where
  updated : o.Updated msg ↔ HasMessage d msg.text
  refused : o.Refused ↔ ¬ HasMessage d msg.text ∧ NoneFree d
  created : ¬ HasMessage d msg.text → ¬ NoneFree d →
    ∃ t i s, NewTimer d o.driver t i s ∧ o.driver.deref s.message = some msg.text
  once : ¬ (o.Updated msg ∧ o.Refused) ∧
    ∀ t i s, NewTimer d o.driver t i s → ¬ o.Updated msg ∧ ¬ o.Refused

/-- The argument occurs somewhere in the text of the listing. -/
def Occurs (cfg : Config) (now : ℕ) (d : Driver) (m : List Byte) : Prop :=
  ∃ slots lines, d.current = some slots ∧ d.activeLines cfg now slots = some lines ∧
    m <:+: lines.flatten

/-- The command as far as it fits `buffer`, which is what the driver gets. -/
def setBuf (sec msg : Arg) : UserBuf := ⟨(setText sec msg).take 127, true⟩

/-- When it does. -/
def SetAgreesWhen (cfg : Config) (now : ℕ) (d : Driver) (sec msg : Arg)
    (alloc alloc1 alloc2 : Bool) : Prop :=
  alloc = true ∧
    ((HasMessage d msg.text ∧ ¬ NoneFree d ∧ alloc1 = true ∧
        ∃ seconds m, requestOf (setBuf sec msg) = .set seconds m ∧ HasMessage d m) ∨
      (¬ Occurs cfg now d msg.text ∧
        (NoneFree d ∨ alloc2 = true ∧
          ∃ seconds, requestOf (setBuf sec msg) = .set seconds msg.text)))

section Command
variable (cfg : Config) (now : ℕ) (d : Driver) (buffer : Buffer 128) (sec msg : Arg) (alloc : Bool)

theorem setText_zero : 0 ∉ setText sec msg := by
  simp only [setText, List.mem_append, not_or]
  exact ⟨⟨sec.text_zero, by decide⟩, msg.text_zero⟩

theorem sendSet_eq : sendSet cfg now d buffer sec msg alloc =
    (d.timerWrite cfg now (setBuf sec msg) alloc).map fun r =>
      (buffer.snprintf 0 (setText sec msg), r) := by
  rw [sendSet, Buffer.cstr_snprintf_zero _ _ (by decide) (setText_zero sec msg)]
  rfl

/-- A command that does not begin with `^` sets a timer or is malformed. -/
theorem requestOf_setBuf (hsec : sec.text.head? ≠ some 94) :
    (∃ e, requestOf (setBuf sec msg) = .malformed e) ∨
      ∃ seconds m, requestOf (setBuf sec msg) = .set seconds m := by
  have hz : 0 ∉ (setText sec msg).take 127 := fun h => setText_zero sec msg (List.mem_of_mem_take h)
  have hhead : ((setText sec msg).take 127).head? ≠ some 94 := by
    rw [List.head?_take, if_neg (by decide), setText, List.append_assoc]
    cases hs : sec.text with
    | nil => exact fun h => by cases h
    | cons c s =>
      rw [hs] at hsec
      exact hsec
  have hlen : ¬ ((setText sec msg).take 127).length > 128 := by
    rw [List.length_take]
    omega
  rw [requestOf, setBuf, if_neg hlen, if_neg (by simp), cstr_append_zero _ _ hz, if_neg hhead,
    timerRequest]
  split
  · exact Or.inl ⟨_, rfl⟩
  · split
    · exact Or.inl ⟨_, rfl⟩
    · exact Or.inr ⟨_, _, rfl⟩

/-- A numeral of a `long` in front of a message without a newline that still fits is read as it
was meant. -/
theorem requestOf_setBuf_fits (hs : sec.text ≠ []) (hd : ∀ b ∈ sec.text, isDigit b = true)
    (hlong : digitRun 0 sec.text < 2^31) (hm : 10 ∉ msg.text)
    (hl : sec.text.length + 1 + msg.text.length ≤ 127) :
    requestOf (setBuf sec msg) = .set (digitRun 0 sec.text) msg.text := by
  have hlen : (setText sec msg).length ≤ 127 := by
    have h1 : (ascii " ").length = 1 := rfl
    simp only [setText, List.length_append, h1]
    omega
  have htake : (setText sec msg).take 127 = setText sec msg := List.take_of_length_le hlen
  have hspace : 32 ∉ sec.text := fun h => by cases hd 32 h
  have hsep : strsep 32 (setText sec msg) = (sec.text, some msg.text) := by
    rw [setText, List.append_assoc]
    exact strsep_append 32 sec.text msg.text hspace
  have hhead : ¬ (setText sec msg).head? = some 94 := by
    cases hs' : sec.text with
    | nil => exact absurd hs' hs
    | cons c s =>
      have hc : isDigit c = true := hd c (by simp [hs'])
      have h94 : c ≠ 94 := fun h => by simp [h, isDigit] at hc
      simpa [setText, hs'] using h94
  have hlen' : ¬ (setText sec msg).length > 128 := by omega
  rw [requestOf, setBuf, htake, if_neg hlen', if_neg (by simp),
    cstr_append_zero _ _ (setText_zero sec msg), if_neg hhead, timerRequest, hsep]
  simp only [kstrtol_digits sec.text hd hs hlong, strsep_of_not_mem 10 msg.text hm]

end Command

/-- The write of a set command that found its slot: the slot is in use with the message, or with
NULL where the allocation failed; nothing else differs. -/
structure SetDone (d d' : Driver) (m : List Byte) (alloc : Bool) (r : ℤ) (t i : ℕ)
    (s s' : MsgTimer) : Prop where
  chosen : Chosen d t i s m
  active : s'.Active
  slot (t' i' : ℕ) : d'.slot t' i' = if t' = t ∧ i' = i then some s' else d.slot t' i'
  gTimers : d'.gTimers = d.gTimers
  gNumTimers : d'.gNumTimers = d.gNumTimers
  result : (alloc = false ∧ r < 0 ∧ s'.message = .null) ∨
    (alloc = true ∧ 0 ≤ r ∧ s'.message ≠ .null ∧ d'.deref s'.message = some m)

section Write
variable (cfg : Config) (now : ℕ) (d d' : Driver) (buf : UserBuf) (alloc : Bool) (r : ℤ)

theorem malformed_write (e : ℤ) (hreq : requestOf buf = .malformed e)
    (h : d.timerWrite cfg now buf alloc = some (d', r)) : d' = d ∧ r < 0 := by
  have he := requestOf_malformed buf e hreq
  rw [timerWrite_eq, hreq] at h
  obtain ⟨rfl, hr⟩ := Prod.mk.inj (Option.some.inj h)
  rw [if_pos he] at hr
  exact ⟨rfl, hr ▸ he⟩

/-- A set command meets a full table without the message, or takes a slot. -/
theorem set_write (hinv : Inv d) (seconds : ℤ) (m : List Byte)
    (hreq : requestOf buf = .set seconds m) (h : d.timerWrite cfg now buf alloc = some (d', r)) :
    (d' = d ∧ 0 ≤ r ∧ d.findAvailableTimer m = some (-ENOMEM)) ∨
      ∃ t i s s', SetDone d d' m alloc r t i s s' := by
  rw [timerWrite_eq, hreq] at h
  obtain ⟨⟨d'', r'⟩, hq, hret⟩ := Option.map_eq_some_iff.mp h
  obtain ⟨rfl, hr⟩ := Prod.mk.inj hret
  have hpos (h0 : 0 ≤ r') : 0 ≤ r := by
    rw [← hr, if_neg (not_lt.mpr h0)]
    exact Int.natCast_nonneg _
  cases perform_effect cfg now d d'' alloc _ r' hq with
  | full seconds m hf => exact Or.inl ⟨rfl, hpos (le_refl _), hf⟩
  | unfilled seconds m t i s ha hf hc =>
    have hneg : r < 0 := by
      have h12 : -ENOMEM < 0 := by decide
      rw [← hr, if_pos h12]
      exact h12
    exact Or.inr ⟨t, i, s, s.unfilled,
      { chosen := hc
        active := rfl
        slot := (stores_unfilled d t i s m hc).slot
        gTimers := rfl
        gNumTimers := rfl
        result := Or.inl ⟨ha, hneg, rfl⟩ }⟩
  | filled seconds m t i s r' ha hf hc hr0 =>
    have hnew := deref_filled cfg now d hinv s seconds m
    exact Or.inr ⟨t, i, s, s.filled cfg now d.nextBlock seconds m,
      { chosen := hc
        active := rfl
        slot := (stores_filled cfg now d t i s m hc seconds).slot
        gTimers := rfl
        gNumTimers := rfl
        result := Or.inr ⟨ha, hpos hr0, (fun hnull => by cases hnull), hnew⟩ }⟩

/-- With the table in order a set command comes back. -/
theorem set_write_defined (hinv : Inv d) (hi : Intact d) (seconds : ℤ) (m : List Byte)
    (hreq : requestOf buf = .set seconds m) :
    ∃ d' r, d.timerWrite cfg now buf alloc = some (d', r) := by
  have hsafe := (safe_iff_intact cfg d hinv).mpr hi
  obtain ⟨index, hf⟩ := Option.ne_none_iff_exists'.mp (hsafe.search m)
  rw [timerWrite_eq, hreq, Driver.perform, hf, Option.bind_some]
  rcases findAvailableTimer_cases d m index hf with ⟨t, i, s, rfl, hc⟩ | ⟨rfl, -⟩
  · rw [if_pos (by omega), setTimer_chosen cfg now d alloc t i s m m seconds hc]
    exact ⟨_, _, rfl⟩
  · rw [if_neg (by decide)]
    exact ⟨_, _, rfl⟩

end Write

section Slots
variable (d d' : Driver) (m : List Byte) (alloc : Bool) (r : ℤ) (t i : ℕ) (s s' : MsgTimer)

/-- A slot in use stays in use. -/
theorem setDone_keeps (h : SetDone d d' m alloc r t i s s') (t' i' : ℕ) (u : MsgTimer)
    (hu : d.slot t' i' = some u) (ha : u.Active) : ∃ u', d'.slot t' i' = some u' ∧ u'.Active := by
  rw [h.slot]
  split_ifs
  · exact ⟨s', rfl, h.active⟩
  · exact ⟨u, hu, ha⟩

/-- The only slot that can be a new one is the chosen one. -/
theorem setDone_new (h : SetDone d d' m alloc r t i s s') (t' i' : ℕ) (u : MsgTimer)
    (hu : NewTimer d d' t' i' u) : (t' = t ∧ i' = i) ∧ u = s' ∧ ¬ s.Active := by
  obtain ⟨⟨u0, hu0, hidle⟩, hslot, hactive⟩ := hu
  rw [h.slot] at hslot
  split_ifs at hslot with hti
  · obtain ⟨rfl, rfl⟩ := hti
    rw [h.chosen.slot] at hu0
    obtain rfl := Option.some.inj hu0
    exact ⟨⟨rfl, rfl⟩, (Option.some.inj hslot).symm, hidle⟩
  · rw [hu0] at hslot
    obtain rfl := Option.some.inj hslot
    exact absurd hactive hidle

/-- A message that the table has is found in its slot. -/
theorem chosen_active (hc : Chosen d t i s m) (hm : HasMessage d m) : s.Active := by
  obtain ⟨t', i', u, ht, hi, hu, ha, hu'⟩ := hm
  rcases hc.choice with ⟨ha', -⟩ | ⟨-, hnone⟩
  · exact ha'
  · rw [hc.table] at ht
    obtain rfl := Option.some.inj ht
    exact absurd hu' (hnone i' u hi hu ha)

theorem chosen_hasMessage (hc : Chosen d t i s m) (ha : s.Active) : HasMessage d m := by
  rcases hc.choice with ⟨-, hm⟩ | ⟨hidle, -⟩
  · exact ⟨t, i, s, hc.table, hc.index, hc.slot, ha, hm⟩
  · exact absurd ha hidle

theorem setDone_hasMessage (h : SetDone d d' m true r t i s s') : HasMessage d' m := by
  rcases h.result with ⟨ha, -⟩ | ⟨-, -, -, hm⟩
  · cases ha
  · refine ⟨t, i, s', h.gTimers.trans h.chosen.table, ?_, ?_, h.active, hm⟩
    · rw [h.gNumTimers]
      exact h.chosen.index
    · rw [h.slot, if_pos ⟨rfl, rfl⟩]

theorem setDone_intact (h : SetDone d d' m true r t i s s') (hi : Intact d) : Intact d' := by
  constructor
  · rw [h.gTimers, h.gNumTimers]
    exact hi.table
  · intro t' i' u ht hlt hu ha
    rw [h.gTimers] at ht
    rw [h.gNumTimers] at hlt
    rw [h.slot] at hu
    split_ifs at hu
    · obtain rfl := Option.some.inj hu
      rcases h.result with ⟨halloc, -⟩ | ⟨-, -, hnull, -⟩
      · cases halloc
      · exact hnull
    · exact hi.message t' i' u ht hlt hu ha

end Slots

section Agree
variable (d : Driver) (msg : Arg)

theorem existText_ne (n : ℕ) : existText n ≠ updatedText msg := by
  intro h
  have hhead : (existText n).head? = some 84 := by rw [h]; rfl
  -- the one begins with a digit, the other with `T`
  obtain ⟨c, s, hs⟩ := List.exists_cons_of_ne_nil (decimal_ne_nil n)
  have hc := isDigit_of_mem_decimal n c (by simp [hs])
  rw [existText, hs, List.cons_append, List.head?_cons] at hhead
  rw [Option.some.inj hhead] at hc
  cases hc

theorem not_newTimer_self (t i : ℕ) (s : MsgTimer) : ¬ NewTimer d d t i s := by
  intro h
  obtain ⟨⟨s0, hs0, hidle⟩, hs, ha⟩ := h
  rw [hs0] at hs
  obtain rfl := Option.some.inj hs
  exact hidle ha

theorem agrees_of_updated (d' : Driver) (success : Bool) (hm : HasMessage d msg.text)
    (hnew : ∀ t i s, ¬ NewTimer d d' t i s) :
    SetAgrees d msg ⟨d', [updatedText msg], success⟩ := by
  have hrefused : ¬ Outcome.Refused ⟨d', [updatedText msg], success⟩ := by
    intro h
    obtain ⟨⟨n, hn⟩, -⟩ := h
    exact existText_ne msg n (List.mem_singleton.mp hn)
  constructor
  · exact ⟨fun _ => hm, fun _ => List.mem_singleton.mpr rfl⟩
  · exact ⟨fun h => absurd h hrefused, fun h => absurd hm h.1⟩
  · exact fun hnot => absurd hm hnot
  · exact ⟨fun h => hrefused h.2, fun t i s h => absurd h (hnew t i s)⟩

theorem agrees_of_refused (n : ℕ) (hm : ¬ HasMessage d msg.text) (hfull : NoneFree d) :
    SetAgrees d msg ⟨d, [existText n], false⟩ := by
  have hupdated : ¬ Outcome.Updated ⟨d, [existText n], false⟩ msg := by
    intro h
    exact existText_ne msg n (List.mem_singleton.mp h).symm
  constructor
  · exact ⟨fun h => absurd h hupdated, fun h => absurd h hm⟩
  · exact ⟨fun _ => ⟨hm, hfull⟩, fun _ => ⟨⟨n, List.mem_singleton.mpr rfl⟩, rfl⟩⟩
  · exact fun _ hnot => absurd hfull hnot
  · exact ⟨fun h => hupdated h.1, fun t i s h => absurd h (not_newTimer_self d t i s)⟩

theorem not_printed (d' : Driver) (success : Bool) :
    ¬ Outcome.Updated ⟨d', [], success⟩ msg ∧ ¬ Outcome.Refused ⟨d', [], success⟩ :=
  ⟨List.not_mem_nil, fun h => by
    obtain ⟨⟨n, hn⟩, -⟩ := h
    cases hn⟩

theorem agrees_of_created (d' : Driver) (success : Bool) (hm : ¬ HasMessage d msg.text)
    (hfree : ¬ NoneFree d)
    (hnew : ∃ t i s, NewTimer d d' t i s ∧ d'.deref s.message = some msg.text) :
    SetAgrees d msg ⟨d', [], success⟩ := by
  obtain ⟨hupdated, hrefused⟩ := not_printed msg d' success
  constructor
  · exact ⟨fun h => absurd h hupdated, fun h => absurd h hm⟩
  · exact ⟨fun h => absurd h hrefused, fun h => absurd h.2 hfree⟩
  · exact fun _ _ => hnew
  · exact ⟨fun h => hupdated h.1, fun _ _ _ _ => ⟨hupdated, hrefused⟩⟩

end Agree

section Branches
variable (cfg : Config) (now : ℕ) (d : Driver) (buffer : Buffer 128) (sec msg : Arg) (flag : Byte)
  (n : ℕ)

/-- A run that sets a timer without a word agrees when it made one with the message. -/
theorem created_of_agrees (d' : Driver) (success : Bool)
    (h : SetAgrees d msg ⟨d', [], success⟩) :
    ¬ HasMessage d msg.text ∧ ¬ NoneFree d ∧
      ∃ t i s, NewTimer d d' t i s ∧ d'.deref s.message = some msg.text := by
  obtain ⟨hupdated, hrefused⟩ := not_printed msg d' success
  have hm : ¬ HasMessage d msg.text := fun hm => hupdated (h.updated.mpr hm)
  have hfree : ¬ NoneFree d := fun hf => hrefused (h.refused.mpr ⟨hm, hf⟩)
  exact ⟨hm, hfree, h.created hm hfree⟩

theorem not_full_of_free (hcur : ∃ slots, d.current = some slots) (m : List Byte)
    (hfree : ¬ NoneFree d) : d.findAvailableTimer m ≠ some (-ENOMEM) := by
  intro hf
  obtain ⟨slots, hcur⟩ := hcur
  apply hfree
  intro t i s ht hi hs
  exact search_full d m slots hcur hf s (slot_mem_current d slots hcur t i s ht hi hs)

/-- A set command finds a slot in a table with a free one, and with memory it fills the slot. -/
theorem set_succeeds (hinv : Inv d) (hi : Intact d) (hfree : ¬ NoneFree d) (buf : UserBuf)
    (seconds : ℤ) (m : List Byte) (hreq : requestOf buf = .set seconds m) :
    ∃ d' r t i s s', d.timerWrite cfg now buf true = some (d', r) ∧ 0 ≤ r ∧
      SetDone d d' m true r t i s s' ∧ d'.deref s'.message = some m := by
  have hcur := current_defined d hinv hi.table
  obtain ⟨d', r, hwrite⟩ := set_write_defined cfg now d buf true hinv hi seconds m hreq
  rcases set_write cfg now d d' buf true r hinv seconds m hreq hwrite with
    ⟨-, -, hf⟩ | ⟨t, i, s, s', hdone⟩
  · exact absurd hf (not_full_of_free d hcur m hfree)
  · rcases hdone.result with ⟨halloc, -⟩ | ⟨-, hr, -, hm'⟩
    · cases halloc
    · exact ⟨d', r, t, i, s, s', hwrite, hr, hdone, hm'⟩

/-- A set command leaves the timers in use that it finds. -/
theorem set_keeps (hinv : Inv d) (d' : Driver) (buf : UserBuf) (alloc : Bool) (r seconds : ℤ)
    (m : List Byte) (hreq : requestOf buf = .set seconds m)
    (hw : d.timerWrite cfg now buf alloc = some (d', r)) (t i : ℕ) (s : MsgTimer)
    (hs : d.slot t i = some s) (ha : s.Active) : ∃ u, d'.slot t i = some u ∧ u.Active := by
  rcases set_write cfg now d d' buf alloc r hinv seconds m hreq hw with
    ⟨rfl, -⟩ | ⟨t', i', s0, s', hdone⟩
  · exact ⟨s, hs, ha⟩
  · exact setDone_keeps d d' m alloc r t' i' s0 s' hdone t i s hs ha

/-- A write that makes a timer is a set command for its message, and its allocation succeeds. -/
theorem write_made (hinv : Inv d) (hsec : sec.text.head? ≠ some 94) (d' : Driver) (alloc : Bool)
    (r : ℤ) (hw : d.timerWrite cfg now (setBuf sec msg) alloc = some (d', r)) (t i : ℕ)
    (u : MsgTimer) (m : List Byte) (hnew : NewTimer d d' t i u)
    (hu : d'.deref u.message = some m) :
    alloc = true ∧ 0 ≤ r ∧ ∃ seconds, requestOf (setBuf sec msg) = .set seconds m := by
  rcases requestOf_setBuf sec msg hsec with ⟨e, hreq⟩ | ⟨seconds, m', hreq⟩
  · obtain ⟨rfl, -⟩ := malformed_write cfg now d d' _ alloc r e hreq hw
    exact absurd hnew (not_newTimer_self _ t i u)
  · rcases set_write cfg now d d' _ alloc r hinv seconds m' hreq hw with
      ⟨rfl, -⟩ | ⟨t', i', s, s', hdone⟩
    · exact absurd hnew (not_newTimer_self _ t i u)
    · obtain ⟨-, rfl, -⟩ := setDone_new d d' m' alloc r t' i' s s' hdone t i u hnew
      rcases hdone.result with ⟨-, -, hnull⟩ | ⟨halloc, hr, -, hm'⟩
      · rw [hnull] at hu
        cases hu
      · rw [hm'] at hu
        obtain rfl := Option.some.inj hu
        exact ⟨halloc, hr, seconds, hreq⟩

/-- The argument does not occur in the listing: no update is tried. -/
theorem missed_agrees (hinv : Inv d) (hi : Intact d) (hflag : flag = 48 ↔ NoneFree d)
    (hsec : sec.text.head? ≠ some 94) (hm : ¬ HasMessage d msg.text) (alloc2 : Bool) :
    (∃ o, finishSet cfg now d buffer flag n sec msg alloc2 [] = some o ∧ SetAgrees d msg o) ↔
      (NoneFree d ∨ alloc2 = true ∧
        ∃ seconds, requestOf (setBuf sec msg) = .set seconds msg.text) := by
  have hcur := current_defined d hinv hi.table
  unfold finishSet
  by_cases hfull : flag = 48
  · rw [if_pos hfull]
    have hnone := hflag.mp hfull
    exact ⟨fun _ => Or.inl hnone, fun _ => ⟨_, rfl, agrees_of_refused d msg _ hm hnone⟩⟩
  · have hfree : ¬ NoneFree d := fun h => hfull (hflag.mpr h)
    rw [if_neg hfull, sendSet_eq]
    constructor
    · intro hex
      obtain ⟨o, ho, hagrees⟩ := hex
      obtain ⟨q, hq, rfl⟩ := Option.map_eq_some_iff.mp ho
      obtain ⟨⟨d', r⟩, hw, rfl⟩ := Option.map_eq_some_iff.mp hq
      obtain ⟨-, -, t, i, u, hnew, hu⟩ := created_of_agrees d msg d' _ hagrees
      obtain ⟨halloc, -, hreq⟩ := write_made cfg now d sec msg hinv hsec d' alloc2 r hw t i u _ hnew hu
      exact Or.inr ⟨halloc, hreq⟩
    · intro hw
      obtain ⟨rfl, seconds, hreq⟩ := hw.resolve_left hfree
      obtain ⟨d', r, t, i, s, s', hwrite, -, hdone, hm'⟩ :=
        set_succeeds cfg now d hinv hi hfree _ seconds _ hreq
      refine ⟨_, by rw [hwrite, Option.map_some, Option.map_some], ?_⟩
      -- the slot was free, since no slot had the message
      have hidle : ¬ s.Active := fun ha => hm (chosen_hasMessage d _ t i s hdone.chosen ha)
      have hslot : d'.slot t i = some s' := by rw [hdone.slot, if_pos ⟨rfl, rfl⟩]
      exact agrees_of_created d msg d' _ hm hfree
        ⟨t, i, s', ⟨⟨s, hdone.chosen.slot, hidle⟩, hslot, hdone.active⟩, hm'⟩

theorem write_inv (d' : Driver) (buf : UserBuf) (alloc : Bool) (r : ℤ) (h : Inv d)
    (hw : d.timerWrite cfg now buf alloc = some (d', r)) : Inv d' := by
  rw [timerWrite_eq] at hw
  obtain ⟨q, hq, hret⟩ := Option.map_eq_some_iff.mp hw
  obtain ⟨rfl, -⟩ := Prod.mk.inj hret
  exact effect_inv cfg now d q.1 alloc _ q.2 h (perform_effect cfg now d q.1 alloc _ q.2 hq)

/-- Neither of two writes of a message that the table has makes a timer. -/
theorem twice_not_new (d1 d2 : Driver) (m : List Byte) (alloc2 : Bool) (r1 r2 : ℤ) (t i : ℕ)
    (s s' : MsgTimer) (hm : HasMessage d m) (h1 : SetDone d d1 m true r1 t i s s')
    (h2 : d2 = d1 ∨ ∃ t2 i2 s2 s2', SetDone d1 d2 m alloc2 r2 t2 i2 s2 s2') (t' i' : ℕ)
    (u : MsgTimer) : ¬ NewTimer d d2 t' i' u := by
  have ha := chosen_active d m t i s h1.chosen hm
  intro hnew
  have hfirst (v : MsgTimer) : ¬ NewTimer d d1 t' i' v := fun hv =>
    (setDone_new d d1 m true r1 t i s s' h1 t' i' v hv).2.2 ha
  rcases h2 with rfl | ⟨t2, i2, s2, s2', h2⟩
  · exact hfirst u hnew
  · obtain ⟨⟨u0, hu0, hidle⟩, hslot, hactive⟩ := hnew
    -- a place that is free at first is still free between the writes
    have hbetween : d1.slot t' i' = some u0 := by
      rw [h1.slot, if_neg, hu0]
      rintro ⟨rfl, rfl⟩
      rw [h1.chosen.slot] at hu0
      obtain rfl := Option.some.inj hu0
      exact hidle ha
    have hm1 := setDone_hasMessage d d1 m r1 t i s s' h1
    exact (setDone_new d1 d2 m alloc2 r2 t2 i2 s2 s2' h2 t' i' u
      ⟨⟨u0, hbetween, hidle⟩, hslot, hactive⟩).2.2 (chosen_active d1 m t2 i2 s2 h2.chosen hm1)

/-- When an accepted write and its repetition make no new timer, the first one was an update. -/
theorem updates_known (hinv : Inv d) (hi : Intact d) (hfree : ¬ NoneFree d)
    (hsec : sec.text.head? ≠ some 94) (alloc1 alloc2 : Bool) (d1 d2 : Driver) (r1 r2 : ℤ)
    (hw1 : d.timerWrite cfg now (setBuf sec msg) alloc1 = some (d1, r1)) (hr1 : ¬ r1 < 0)
    (hw2 : d1.timerWrite cfg now (setBuf sec msg) alloc2 = some (d2, r2))
    (hnone : ∀ t i s, ¬ NewTimer d d2 t i s) :
    alloc1 = true ∧ ∃ seconds m, requestOf (setBuf sec msg) = .set seconds m ∧ HasMessage d m := by
  have hcur := current_defined d hinv hi.table
  rcases requestOf_setBuf sec msg hsec with ⟨e, hreq⟩ | ⟨seconds, m, hreq⟩
  · exact absurd (malformed_write cfg now d d1 _ alloc1 r1 e hreq hw1).2 hr1
  · rcases set_write cfg now d d1 _ alloc1 r1 hinv seconds m hreq hw1 with
      ⟨-, -, hf⟩ | ⟨t, i, s, s', hdone⟩
    · exact absurd hf (not_full_of_free d hcur m hfree)
    · rcases hdone.result with ⟨-, hr, -⟩ | ⟨halloc, -⟩
      · exact absurd hr hr1
      · refine ⟨halloc, seconds, m, hreq, chosen_hasMessage d m t i s hdone.chosen ?_⟩
        -- otherwise the first write made a timer, and the second one keeps it
        by_contra hidle
        have hslot1 : d1.slot t i = some s' := by rw [hdone.slot, if_pos ⟨rfl, rfl⟩]
        have hinv1 := write_inv cfg now d d1 _ alloc1 r1 hinv hw1
        obtain ⟨u, hu, hua⟩ :=
          set_keeps cfg now d1 hinv1 d2 _ alloc2 r2 seconds m hreq hw2 t i s' hslot1 hdone.active
        exact hnone t i u ⟨⟨s, hdone.chosen.slot, hidle⟩, hu, hua⟩

/-- The argument occurs in the listing: the update is written, and the flag is looked at again. -/
theorem found_agrees (hinv : Inv d) (hi : Intact d) (hflag : flag = 48 ↔ NoneFree d)
    (hsec : sec.text.head? ≠ some 94) (alloc1 alloc2 : Bool) :
    (∃ o, ((sendSet cfg now d buffer sec msg alloc1).bind fun q =>
        if q.2.2 < 0 then some ⟨q.2.1, [], false⟩
        else finishSet cfg now q.2.1 q.1 flag n sec msg alloc2 [updatedText msg]) = some o ∧
      SetAgrees d msg o) ↔
    HasMessage d msg.text ∧ ¬ NoneFree d ∧ alloc1 = true ∧
      ∃ seconds m, requestOf (setBuf sec msg) = .set seconds m ∧ HasMessage d m := by
  constructor
  · intro hex
    obtain ⟨o, ho, hagrees⟩ := hex
    obtain ⟨q, hq, ho⟩ := Option.bind_eq_some_iff.mp ho
    rw [sendSet_eq] at hq
    obtain ⟨⟨d1, r1⟩, hw1, rfl⟩ := Option.map_eq_some_iff.mp hq
    simp only [finishSet] at ho
    split_ifs at ho with hneg hfull
    · -- a failed write ends the run without a word, and has made no timer
      obtain rfl := Option.some.inj ho
      obtain ⟨-, -, t, i, u, hnew, hu⟩ := created_of_agrees d msg d1 _ hagrees
      have hmade := write_made cfg now d sec msg hinv hsec d1 alloc1 r1 hw1 t i u _ hnew hu
      exact absurd hneg (not_lt.mpr hmade.2.1)
    · -- a full table gets the update and the refusal
      obtain rfl := Option.some.inj ho
      exact absurd ⟨List.mem_cons_self, ⟨_, List.mem_cons_of_mem _ (List.mem_singleton.mpr rfl)⟩, rfl⟩
        hagrees.once.1
    · rw [sendSet_eq] at ho
      obtain ⟨q2, hq2, rfl⟩ := Option.map_eq_some_iff.mp ho
      obtain ⟨⟨d2, r2⟩, hw2, rfl⟩ := Option.map_eq_some_iff.mp hq2
      have hupdated : Outcome.Updated ⟨d2, [updatedText msg], decide (0 ≤ r2)⟩ msg :=
        List.mem_singleton.mpr rfl
      have hfree : ¬ NoneFree d := fun h => hfull (hflag.mpr h)
      refine ⟨hagrees.updated.mp hupdated, hfree, ?_⟩
      exact updates_known cfg now d sec msg hinv hi hfree hsec alloc1 alloc2 d1 d2 r1 r2 hw1 hneg
        hw2 fun t i s hnew => (hagrees.once.2 t i s hnew).1 hupdated
  · rintro ⟨hm, hfree, rfl, seconds, m, hreq, hm'⟩
    have hfull : ¬ flag = 48 := fun h => hfree (hflag.mp h)
    obtain ⟨d1, r1, t, i, s, s', hw1, hr, hdone, -⟩ :=
      set_succeeds cfg now d hinv hi hfree _ seconds m hreq
    have hinv1 := write_inv cfg now d d1 _ true r1 hinv hw1
    obtain ⟨d2, r2, hw2⟩ := set_write_defined cfg now d1 _ alloc2 hinv1
      (setDone_intact d d1 m r1 t i s s' hdone hi) seconds m hreq
    refine ⟨⟨d2, [updatedText msg], decide (0 ≤ r2)⟩, ?_, ?_⟩
    · simp only [sendSet_eq, hw1, Option.map_some, Option.bind_some, if_neg (not_lt.mpr hr),
        finishSet, if_neg hfull, hw2]
    · apply agrees_of_updated d msg d2 _ hm
      apply twice_not_new d d1 d2 m alloc2 r1 r2 t i s s' hm' hdone
      rcases set_write cfg now d1 d2 _ alloc2 r2 hinv1 seconds m hreq hw2 with ⟨rfl, -⟩ | hdone2
      · exact Or.inl rfl
      · exact Or.inr hdone2

end Branches

section Client
variable (cfg : Config) (now : ℕ) (d : Driver)

theorem noneFree_iff (slots : List MsgTimer) (hcur : d.current = some slots) :
    NoneFree d ↔ ∀ s ∈ slots, s.Active := by
  constructor
  · intro h s hs
    obtain ⟨t, i, ht, hi, hslot⟩ := current_slot d slots hcur s hs
    exact h t i s ht hi hslot
  · intro h t i s ht hi hs
    exact h s (slot_mem_current d slots hcur t i s ht hi hs)

theorem flag_full (slots : List MsgTimer) (flag : Byte) (hcur : d.current = some slots)
    (hroom : d.checkForRoom = some flag) : flag = 48 ↔ NoneFree d := by
  rw [noneFree_iff d slots hcur]
  rw [Driver.checkForRoom, hcur, Option.map_some] at hroom
  obtain rfl := Option.some.inj hroom
  have hall : slots.any (·.timer.function.isNone) = false ↔ ∀ s ∈ slots, s.Active := by
    simp only [List.any_eq_false, ← isSome_function, Option.isNone_iff_eq_none,
      Option.isSome_iff_ne_none, ne_eq]
  rw [← hall]
  cases slots.any (·.timer.function.isNone) <;> decide

theorem occurs_of_hasMessage (slots : List MsgTimer) (lines : List (List Byte))
    (hcur : d.current = some slots) (hlines : d.activeLines cfg now slots = some lines)
    (m : List Byte) (hm : HasMessage d m) : m <:+: lines.flatten := by
  obtain ⟨t, i, s, ht, hi, hs, ha, hm⟩ := hm
  have hmem := slot_mem_current d slots hcur t i s ht hi hs
  have hline : Driver.activeLine cfg now s m ∈ lines := by
    rw [activeLines_eq cfg now d slots lines hlines, ← deref_text d _ m hm]
    exact List.mem_map_of_mem (List.mem_filter.mpr ⟨hmem, decide_eq_true ha⟩)
  have hprefix : m <:+: Driver.activeLine cfg now s m :=
    ⟨[], ascii " " ++ decimalInt (Driver.remaining cfg now s) ++ ascii "\n", by
      simp [Driver.activeLine]⟩
  exact hprefix.trans (List.infix_of_mem_flatten hline)

theorem intact_of_fits (hf : FitsRead cfg now d) : Intact d := by
  obtain ⟨slots, hcur, hmessage, ⟨u, hu, -⟩, -⟩ := hf
  obtain ⟨t, -, ht, -⟩ := current_slot d slots hcur u hu
  exact ⟨fun _ => by rw [ht]; simp, fun t' i s ht' hi hs ha =>
    hmessage s (slot_mem_current d slots hcur t' i s ht' hi hs) ha⟩

/-- `strstr` decides between the two branches. -/
theorem clientSet_agrees (hinv : Inv d) (hz : NoZero d) (hf : FitsRead cfg now d)
    (buffer : Buffer 128) (sec msg : Arg) (hsec : sec.text.head? ≠ some 94)
    (alloc alloc' alloc1 alloc2 : Bool) :
    (∃ o, clientSet cfg now d buffer sec msg alloc alloc' alloc1 alloc2 = some o ∧
      SetAgrees d msg o) ↔ SetAgreesWhen cfg now d sec msg alloc alloc1 alloc2 := by
  cases alloc with
  | false =>
    refine ⟨?_, fun h => by cases h.1⟩
    intro hex
    obtain ⟨o, ho, -⟩ := hex
    obtain ⟨r, hr, ho⟩ := Option.bind_eq_some_iff.mp ho
    obtain ⟨⟨flag, buffer'⟩, hp, -⟩ := Option.bind_eq_some_iff.mp ho
    -- the flag on its own cannot be decoded
    rw [setDecode_eq] at hp
    have htwo := (listDecode_length buffer r.bytes flag buffer' hp).1
    have hone := clientRead_unlisted cfg now d alloc' r hr
    omega
  | true =>
    have hi := intact_of_fits cfg now d hf
    obtain ⟨slots, lines, text, flag, hs⟩ := fits_shown cfg now d hinv hz hf
    have hflag := flag_full d slots flag hs.current hs.room
    have hhas := occurs_of_hasMessage cfg now d slots lines hs.current hs.active msg.text
    have hoccurs : Occurs cfg now d msg.text ↔ msg.text <:+: lines.flatten := by
      constructor
      · intro h
        obtain ⟨slots', lines', hcur, hlines, hin⟩ := h
        rw [hs.current] at hcur
        obtain rfl := Option.some.inj hcur
        rw [hs.active] at hlines
        obtain rfl := Option.some.inj hlines
        exact hin
      · exact fun h => ⟨slots, lines, hs.current, hs.active, h⟩
    obtain ⟨buffer', hdecode, hcstr⟩ := listDecode_whole buffer text flag hs.zero hs.length
    rw [← hs.listing] at hcstr
    have hset : setDecode buffer (text ++ [flag,10]) = some (flag, buffer') :=
      (setDecode_eq _ _).trans hdecode
    simp only [clientSet, hs.read alloc', Option.bind_some, hset, hcstr, strstr, SetAgreesWhen,
      hoccurs, true_and, decide_eq_true_eq]
    by_cases hin : msg.text <:+: lines.flatten
    · rw [if_pos hin, found_agrees cfg now d buffer' sec msg flag _ hinv hi hflag hsec]
      exact ⟨Or.inl, fun h => h.resolve_right fun hr => hr.1 hin⟩
    · have hm : ¬ HasMessage d msg.text := fun hm => hin (hhas hm)
      rw [if_neg hin, missed_agrees cfg now d buffer' sec msg flag _ hinv hi hflag hsec hm]
      exact ⟨fun h => Or.inr ⟨hin, h⟩, fun h => (h.resolve_left fun hl => hm hl.1).2⟩

end Client

/-- In every reachable state whose listing fits the read, for every message and every seconds
argument that does not begin with `^`, the outcome of `ktimer -s` agrees with the driver in
exactly these cases. -/
theorem set_agrees_iff (cfg : Config) (load : ℕ) (loadAlloc : Bool) (s : State)
    (h : Reach (step cfg) (fun _ _ => True) (loaded load loadAlloc) s)
    (hf : FitsRead cfg s.now s.driver) (buffer : Buffer 128) (sec msg : Arg)
    (hsec : sec.text.head? ≠ some 94) (alloc alloc' alloc1 alloc2 : Bool) :
    (∃ o, clientSet cfg s.now s.driver buffer sec msg alloc alloc' alloc1 alloc2 = some o ∧
      SetAgrees s.driver msg o) ↔
        SetAgreesWhen cfg s.now s.driver sec msg alloc alloc1 alloc2 := by
  exact clientSet_agrees cfg s.now s.driver (inv_reach cfg load loadAlloc s h)
    (noZero_reach cfg load loadAlloc s h) hf buffer sec msg hsec alloc alloc' alloc1 alloc2

def sampleArg (text : String) (h : 0 ∉ ascii text) : Arg := ⟨ascii text, h⟩

/-- The first slot of the table at `t`, of `n` timers, holds `dakota`. -/
def sampleCheck (t n : ℕ) (d : Driver) : Bool :=
  decide (d.gTimers = some t) && decide (d.gNumTimers = n) &&
    (d.slot t 0).any fun s => s.Active && decide (d.deref s.message = some (ascii "dakota"))

theorem sample_facts (t n : ℕ) (hn : 0 < n) (d : Driver) (h : sampleCheck t n d = true) :
    HasMessage d (ascii "dakota") ∧ (n = 1 → NoneFree d) := by
  simp only [sampleCheck, Bool.and_eq_true, decide_eq_true_eq, Option.any_eq_true] at h
  obtain ⟨⟨ht, hnum⟩, s, hs, ha, hm⟩ := h
  refine ⟨⟨t, 0, s, ht, by rw [hnum]; exact_mod_cast hn, hs, ha, hm⟩, ?_⟩
  intro hone t' i' u ht' hi hu
  rw [hnum, hone] at hi
  rw [ht] at ht'
  obtain rfl := Option.some.inj ht'
  obtain rfl : i' = 0 := by omega
  rw [hs] at hu
  obtain rfl := Option.some.inj hu
  exact ha

set_option maxRecDepth 8192 in
/-- `billy` is set in a table of two that holds `dakota`. -/
theorem set_agrees_iff_run : ∃ s o,
    Reach (step sampleConfig) (fun _ _ => True) (loaded 0 true) s ∧
      HasMessage s.driver (ascii "dakota") ∧
      clientSet sampleConfig s.now s.driver (Buffer.zero 128) (sampleArg "5" (by decide))
        (sampleArg "billy" (by decide)) true true true true = some o ∧
      SetAgrees s.driver (sampleArg "billy" (by decide)) o := by
  obtain ⟨s, hs, hp⟩ := exists_reach_of_free_run (step sampleConfig) (loaded 0 true)
    [sampleWrite "^COUNT=2\n" true, sampleWrite "300 dakota\n" true]
    (fun s => fitsCheck sampleConfig s.now s.driver = true ∧ sampleCheck 1 2 s.driver = true ∧
      ∀ lines ∈ s.driver.current.bind (s.driver.activeLines sampleConfig s.now),
        ¬ ascii "billy" <:+: lines.flatten) (by decide)
  obtain ⟨hfits, hsample, hnot⟩ := of_decide_eq_true hp
  have hwhen : SetAgreesWhen sampleConfig s.now s.driver (sampleArg "5" (by decide))
      (sampleArg "billy" (by decide)) true true true := by
    refine ⟨rfl, Or.inr ⟨?_, Or.inr ⟨rfl, 5, rfl⟩⟩⟩
    intro hoccurs
    obtain ⟨slots, lines, hcur, hlines, hin⟩ := hoccurs
    exact hnot lines (by rw [hcur]; exact hlines) hin
  obtain ⟨o, ho, hagrees⟩ := (set_agrees_iff sampleConfig 0 true s hs (fits_of_check _ _ _ hfits)
    (Buffer.zero 128) (sampleArg "5" (by decide)) (sampleArg "billy" (by decide)) (by decide)
    true true true true).mpr hwhen
  exact ⟨s, o, hs, (sample_facts 1 2 (by decide) s.driver hsample).1, ho, hagrees⟩

set_option maxRecDepth 8192 in
/-- The only timer of a full table is set again: the client reports the update, and then that
no timer is left. -/
theorem full_table_updated_and_refused : ¬ ∀ (cfg : Config) (load : ℕ) (loadAlloc : Bool)
    (s : State), Reach (step cfg) (fun _ _ => True) (loaded load loadAlloc) s →
      FitsRead cfg s.now s.driver → ∀ (buffer : Buffer 128) (sec msg : Arg), sec.text ≠ [] →
        (∀ b ∈ sec.text, isDigit b = true) → 10 ∉ msg.text →
          ∃ o, clientSet cfg s.now s.driver buffer sec msg true true true true = some o ∧
            SetAgrees s.driver msg o := by
  intro hall
  obtain ⟨s, hs, hp⟩ := exists_reach_of_free_run (step sampleConfig) (loaded 0 true)
    [sampleWrite "300 dakota\n" true]
    (fun s => fitsCheck sampleConfig s.now s.driver = true ∧ sampleCheck 0 1 s.driver = true)
    (by decide)
  obtain ⟨hfits, hsample⟩ := of_decide_eq_true hp
  have hf := fits_of_check _ _ _ hfits
  have hinv := inv_reach sampleConfig 0 true s hs
  have hz := noZero_reach sampleConfig 0 true s hs
  obtain ⟨hm, hfull⟩ := sample_facts 0 1 (by decide) s.driver hsample
  have hwhen := (clientSet_agrees sampleConfig s.now s.driver hinv hz hf (Buffer.zero 128)
    (sampleArg "5" (by decide)) (sampleArg "dakota" (by decide)) (by decide)
    true true true true).mp (hall sampleConfig 0 true s hs hf _ _ _ (by decide) (by decide)
      (by decide))
  rcases hwhen.2 with ⟨-, hfree, -⟩ | ⟨hnot, -⟩
  · exact hfree (hfull rfl)
  · obtain ⟨slots, lines, text, flag, hshown⟩ := fits_shown sampleConfig s.now s.driver hinv hz hf
    exact hnot ⟨slots, lines, hshown.current, hshown.active,
      occurs_of_hasMessage _ _ _ slots lines hshown.current hshown.active _ hm⟩

end DevKota.Lab2
