import DevKota.Lab3Proc

/-! Which processes `ktimer -r` kills. -/
namespace DevKota.Lab3
open CString Kernel Runs

/-- Owners as the kernel has them: pids are positive `int`s, command names have at most
15 bytes. -/
structure OwnersValid (d : Driver) : Prop where
  pid_pos (k : Fin maxTimers) : (d.timers k).Active → 0 < (d.timers k).ownerPid
  pid_lt (k : Fin maxTimers) : (d.timers k).Active → (d.timers k).ownerPid < 2^31
  command_length (k : Fin maxTimers) : (d.timers k).Active → (d.timers k).command.length ≤ 15

section Report
variable (cfg : Config) (now : ℕ) (d : Driver)

def uptime : ℕ := (cfg.jiffiesToMsecs (jiffies now - d.moduleLoadTime)).toNat

/-- The block of a slot in the report, if it has one. -/
def shown (k : Fin maxTimers) : List Byte :=
  if (d.timers k).Active then Driver.procBlock cfg now k (d.timers k) else []

theorem procTitle_eq (k : Fin maxTimers) :
    (Driver.procTitle k).length = 22 ∧ 0 ∉ Driver.procTitle k ∧ 103 ∉ Driver.procTitle k ∧
      100 ∉ Driver.procTitle k := by
  revert k
  decide

theorem procHead_length : (d.procHead cfg now).length = 28 + (decimal (uptime cfg now d)).length := by
  have h1 : (ascii "module: mytimer\nuptime: ").length = 24 := rfl
  have h2 : (ascii " ms\n").length = 4 := rfl
  simp only [Driver.procHead, List.length_append, h1, h2, uptime]
  omega

theorem procBlock_length (k : Fin maxTimers) (t : TimerInfo) :
    (Driver.procBlock cfg now k t).length = 62 + (decimal t.ownerPid).length + t.command.length +
      (decimal (Driver.remaining cfg now t)).length := by
  have h0 := (procTitle_eq k).1
  have h1 : (ascii "\ncalling pid: ").length = 14 := rfl
  have h2 : (ascii "\ncommand: ").length = 10 := rfl
  have h3 : (ascii "\nexpiration: ").length = 13 := rfl
  have h4 : (ascii " s\n").length = 3 := rfl
  simp only [Driver.procBlock, List.length_append, h0, h1, h2, h3, h4]
  omega

theorem zero_not_mem_procHead : 0 ∉ d.procHead cfg now := by
  simp only [Driver.procHead, List.mem_append, not_or]
  exact ⟨⟨by decide, not_mem_decimal _ 0 (by decide)⟩, by decide⟩

theorem zero_not_mem_procBlock (k : Fin maxTimers) (t : TimerInfo) :
    0 ∉ Driver.procBlock cfg now k t := by
  simp only [Driver.procBlock, List.mem_append, not_or]
  exact ⟨⟨⟨⟨⟨⟨⟨(procTitle_eq k).2.1, by decide⟩, not_mem_decimal _ 0 (by decide)⟩, by decide⟩,
    zero_not_mem_cstr _⟩, by decide⟩, not_mem_decimal _ 0 (by decide)⟩, by decide⟩

theorem uptime_digits : (decimal (uptime cfg now d)).length ≤ 10 := by
  apply decimal_length_le _ 10 (by decide)
  have h := (cfg.jiffiesToMsecs (jiffies now - d.moduleLoadTime)).isLt
  unfold uptime
  omega

theorem shown_length (h : OwnersValid d) (k : Fin maxTimers) : (shown cfg now d k).length ≤ 97 := by
  unfold shown
  split_ifs with hk
  · have hp := decimal_length_le (d.timers k).ownerPid 10 (by decide) (by
      have := h.pid_lt k hk
      omega)
    have hr := decimal_length_le _ 10 (by decide) (remaining_lt cfg now (d.timers k))
    have hc := h.command_length k hk
    rw [procBlock_length]
    omega
  · exact Nat.zero_le _

theorem cstr_append_string (buf : Buffer 1000) (text : List Byte)
    (hl : (cstr buf.bytes).length + text.length < 1000) (ht : 0 ∉ text) :
    cstr (buf.snprintf (cstr buf.bytes).length text).bytes = cstr buf.bytes ++ text := by
  have htake : buf.bytes.take (cstr buf.bytes).length = cstr buf.bytes :=
    (List.prefix_iff_eq_take.mp (List.takeWhile_prefix _)).symm
  rw [Buffer.cstr_snprintf _ _ _ hl (by rw [htake]; exact zero_not_mem_cstr _) ht, htake]

theorem procAppend_fold (l : List (Fin maxTimers)) (buf : Buffer 1000)
    (hl : (cstr buf.bytes).length + (l.flatMap (shown cfg now d)).length < 1000) :
    cstr (l.foldl (d.procAppend cfg now) buf).bytes =
      cstr buf.bytes ++ l.flatMap (shown cfg now d) := by
  induction l generalizing buf with
  | nil => simp
  | cons k l ih =>
    rw [List.flatMap_cons, List.length_append] at hl
    have happ : cstr (d.procAppend cfg now buf k).bytes = cstr buf.bytes ++ shown cfg now d k := by
      unfold Driver.procAppend shown at *
      split_ifs at hl ⊢
      · exact cstr_append_string buf _ (by omega) (zero_not_mem_procBlock cfg now k _)
      · simp
    rw [List.foldl_cons, ih _ (by rw [happ, List.length_append]; omega), happ, List.flatMap_cons,
      List.append_assoc]

theorem mytimerProcShow_eq (h : OwnersValid d) (buf : Buffer 1000) :
    d.mytimerProcShow cfg now buf =
      d.procHead cfg now ++ (shown cfg now d 0 ++ shown cfg now d 1) := by
  have hhead : cstr (buf.snprintf 0 (d.procHead cfg now)).bytes = d.procHead cfg now := by
    have hu := uptime_digits cfg now d
    have hl := procHead_length cfg now d
    rw [Buffer.cstr_snprintf _ _ _ (by omega) (by simp) (zero_not_mem_procHead cfg now d)]
    simp
  -- 38 bytes of head and two blocks of 97 fit the 1000 bytes
  have hblocks : (List.finRange maxTimers).flatMap (shown cfg now d) =
      shown cfg now d 0 ++ shown cfg now d 1 := by
    simp [List.finRange_succ]
  have h0 := shown_length cfg now d h 0
  have h1 := shown_length cfg now d h 1
  have hu := uptime_digits cfg now d
  have hl := procHead_length cfg now d
  unfold Driver.mytimerProcShow
  rw [procAppend_fold cfg now d _ _ (by
    rw [hhead, hblocks, List.length_append]
    omega), hhead, hblocks]

end Report

section Blocks
variable (cfg : Config) (now : ℕ) (k : Fin maxTimers) (t : TimerInfo)

theorem removeBranch_head (d : Driver) (rest : List Byte) :
    removeBranch (d.procHead cfg now ++ rest) = removeBranch rest := by
  have hsplit : d.procHead cfg now ++ rest =
      (ascii "module: mytimer\nuptime: " ++ decimal (uptime cfg now d) ++ ascii " ms") ++
        10 :: rest := by
    simp [Driver.procHead, uptime, ascii]
  rw [hsplit]
  apply removeBranch_skip
  -- no 'g' in it
  apply not_infix_of_not_mem _ 103 (by decide)
  simp only [List.mem_append, not_or]
  exact ⟨⟨by decide, not_mem_decimal _ 103 (by decide)⟩, by decide⟩

theorem procBlock_lines (rest : List Byte) :
    Driver.procBlock cfg now k t ++ rest =
      Driver.procTitle k ++ 10 :: (ascii "calling pid: " ++ decimal t.ownerPid ++
        10 :: (ascii "command: " ++ t.command ++ 10 :: (ascii "expiration: " ++
          (decimal (Driver.remaining cfg now t) ++ ascii " s" ++ 10 :: rest)))) := by
  simp [Driver.procBlock, ascii]

theorem label_needle (s : List Byte) : callingPid <:+: ascii "calling pid: " ++ s :=
  ⟨[], ascii ": " ++ s, by simp [callingPid, ascii]⟩

theorem newline_not_mem_label (s : List Byte) (h : 10 ∉ s) : 10 ∉ ascii "calling pid: " ++ s := by
  simp only [List.mem_append, not_or]
  exact ⟨by decide, h⟩

theorem removeBranch_title (rest : List Byte) :
    removeBranch (Driver.procTitle k ++ 10 :: rest) = removeBranch rest := by
  apply removeBranch_skip
  exact not_infix_of_not_mem _ 103 (by decide) (procTitle_eq k).2.2.1

theorem removeBranch_pid (n : ℕ) (rest : List Byte) :
    removeBranch (ascii "calling pid: " ++ decimal n ++ 10 :: rest) =
      (removeBranch rest).map fun pids => (n:ℤ) :: pids := by
  have hlabel : (ascii "calling pid: ").length = 13 := rfl
  have hn := newline_not_mem_label (decimal n) (not_mem_decimal n 10 (by decide))
  rw [removeBranch_line _ rest hn (label_needle _), pidString, if_pos (by
    simp only [List.length_append, hlabel]
    omega), Option.bind_some, List.append_assoc, List.drop_left' hlabel, atoi_decimal n _ (by
    intro c hc
    obtain rfl := Option.some.inj hc
    decide)]

/-- A pid line that the end of the text cuts gives the digits that are left. -/
theorem removeBranch_digits (s : List Byte) (hs : ∀ b ∈ s, isDigit b = true) :
    removeBranch (ascii "calling pid: " ++ s) = some [(digitRun 0 s : ℤ)] := by
  have hlabel : (ascii "calling pid: ").length = 13 := rfl
  have hs10 : 10 ∉ s := by
    intro h
    exact absurd (hs 10 h) (by decide)
  have hval : atoi s = digitRun 0 s := by
    cases s with
    | nil => rfl
    | cons b s =>
      have h := atoi_digits (b :: s) [] (by simp) hs (by simp)
      rwa [List.append_nil] at h
  rw [removeBranch_last _ (newline_not_mem_label s hs10) (label_needle s), pidString, if_pos (by
    simp only [List.length_append, hlabel]
    omega), List.append_nil, List.drop_left' hlabel, Option.map_some, hval]

/-- A block that is read whole costs its owner, and what the command name spells. -/
theorem removeBranch_block (rest : List Byte) (hc : t.command.length ≤ 15) :
    removeBranch (Driver.procBlock cfg now k t ++ rest) =
      (removeBranch rest).map fun pids => (t.ownerPid:ℤ) :: (falsePids t.command ++ pids) := by
  have hexp : ¬ callingPid <:+:
      ascii "expiration: " ++ (decimal (Driver.remaining cfg now t) ++ ascii " s") := by
    apply not_infix_of_not_mem _ 103 (by decide)
    simp only [List.mem_append, not_or]
    exact ⟨by decide, not_mem_decimal _ 103 (by decide), by decide⟩
  have hlast : removeBranch (ascii "expiration: " ++
      (decimal (Driver.remaining cfg now t) ++ ascii " s" ++ 10 :: rest)) = removeBranch rest := by
    have h := removeBranch_skip _ rest hexp
    simpa only [List.append_assoc] using h
  rw [procBlock_lines, removeBranch_title, removeBranch_pid, removeBranch_command _ _ hc, hlast,
    Option.map_map]
  rfl

/-- A block from its title to the command name, and some tail. -/
def pidBlock (tail : List Byte) : List Byte :=
  Driver.procTitle k ++ 10 :: (ascii "calling pid: " ++ (decimal t.ownerPid ++
    10 :: (ascii "command: " ++ tail)))

theorem procBlock_eq : ∃ tail, Driver.procBlock cfg now k t = pidBlock k t tail := by
  have h := procBlock_lines cfg now k t []
  rw [List.append_nil] at h
  refine ⟨t.command ++ 10 :: (ascii "expiration: " ++
    (decimal (Driver.remaining cfg now t) ++ ascii " s" ++ [10])), ?_⟩
  simpa only [pidBlock, List.append_assoc] using h

/-- Not even the needle is visible: its last byte is missing. -/
theorem removeBranch_cut_title (tail : List Byte) (n : ℕ) (hn : n ≤ 33) :
    removeBranch ((pidBlock k t tail).take n) = some [] := by
  apply removeBranch_none
  -- no 'd' in it
  apply not_infix_of_not_mem _ 100 (by decide)
  have hpre : pidBlock k t tail = (Driver.procTitle k ++ ascii "\ncalling pi") ++
      (ascii "d: " ++ (decimal t.ownerPid ++ 10 :: (ascii "command: " ++ tail))) := by
    simp [pidBlock, ascii]
  have hlen : (Driver.procTitle k ++ ascii "\ncalling pi").length = 33 := by
    rw [List.length_append, (procTitle_eq k).1]
    rfl
  rw [hpre, List.take_append_of_le_length (by omega)]
  intro h
  rcases List.mem_append.mp (List.mem_of_mem_take h) with h | h
  · exact (procTitle_eq k).2.2.2 h
  · exact absurd h (by decide)

/-- The needle is the end of the text, and the offset leads behind it. -/
theorem removeBranch_cut_label (tail : List Byte) (n : ℕ) (hn : 33 < n) (hn' : n ≤ 35) :
    removeBranch ((pidBlock k t tail).take n) = none := by
  have htitle := (procTitle_eq k).1
  have hlabel : (ascii "calling pid: ").length = 13 := rfl
  have hcut : (pidBlock k t tail).take n =
      Driver.procTitle k ++ 10 :: (ascii "calling pid: ").take (n-23) := by
    have hn23 : n = (Driver.procTitle k).length + ((n-23)+1) := by omega
    rw [pidBlock, hn23, List.take_length_add_append, List.take_succ_cons,
      List.take_append_of_le_length (by omega)]
    congr 3
    omega
  have hshort (m : ℕ) (hm : m = 11 ∨ m = 12) :
      removeBranch ((ascii "calling pid: ").take m) = none := by
    rcases hm with rfl | rfl
    · rw [removeBranch_last _ (by decide) (by decide)]
      rfl
    · rw [removeBranch_last _ (by decide) (by decide)]
      rfl
  rw [hcut, removeBranch_title, hshort _ (by omega)]

theorem removeBranch_cut_digits (tail : List Byte) (n : ℕ) (hn : 35 < n) (hn' : n ≤ 56) :
    removeBranch ((pidBlock k t tail).take n) =
      some [(digitRun 0 ((decimal t.ownerPid).take (n-36)) : ℤ)] := by
  have htitle := (procTitle_eq k).1
  have hlabel : (ascii "calling pid: ").length = 13 := rfl
  have hcut : (pidBlock k t tail).take n =
      Driver.procTitle k ++ 10 :: (ascii "calling pid: " ++ (decimal t.ownerPid ++
        10 :: (ascii "command: " ++ tail)).take (n-36)) := by
    have hn36 : n = (Driver.procTitle k).length + (((ascii "calling pid: ").length+(n-36))+1) := by
      omega
    conv_lhs => rw [hn36]
    rw [pidBlock, List.take_length_add_append, List.take_succ_cons, List.take_length_add_append]
  rw [hcut, removeBranch_title]
  rcases Nat.lt_or_ge (decimal t.ownerPid).length (n-36) with hp | hp
  · -- the pid line is whole; what follows it is too short for another needle
    have hrest : ¬ callingPid <:+: (ascii "command: " ++ tail).take
        (n-36-(decimal t.ownerPid).length-1) := by
      have hpos := decimal_length_pos t.ownerPid
      have hpre : (ascii "command: " ++ tail).take (n-36-(decimal t.ownerPid).length-1) <+:
          ascii "command: " ++ tail.take 10 := by
        have h18 : ascii "command: " ++ tail.take 10 = (ascii "command: " ++ tail).take 19 := by
          simp [ascii]
        rw [h18]
        exact List.take_prefix_take_left (by omega)
      intro h
      apply not_infix_command (tail.take 10) _ (h.trans hpre.isInfix)
      apply not_infix_of_short
      rw [List.length_take]
      omega
    have htake : (decimal t.ownerPid ++ 10 :: (ascii "command: " ++ tail)).take (n-36) =
        decimal t.ownerPid ++ 10 :: (ascii "command: " ++ tail).take
          (n-36-(decimal t.ownerPid).length-1) := by
      have hsplit : n-36 = (decimal t.ownerPid).length +
          ((n-36-(decimal t.ownerPid).length-1)+1) := by omega
      conv_lhs => rw [hsplit]
      rw [List.take_length_add_append, List.take_succ_cons]
    rw [htake, ← List.append_assoc, removeBranch_pid, removeBranch_none _ hrest,
      List.take_of_length_le (by omega), digitRun_decimal]
    rfl
  · rw [List.take_append_of_le_length hp]
    apply removeBranch_digits
    intro b hb
    exact isDigit_of_mem_decimal _ b (List.mem_of_mem_take hb)

/-- The second block, cut behind its first `n` bytes: nothing, a pointer outside the text, or
the pid as far as its digits are left. -/
theorem removeBranch_cut (n : ℕ) (hn : n ≤ 56) :
    removeBranch ((Driver.procBlock cfg now k t).take n) =
      if n ≤ 33 then some []
      else if n ≤ 35 then none
      else some [(digitRun 0 ((decimal t.ownerPid).take (n-36)) : ℤ)] := by
  obtain ⟨tail, htail⟩ := procBlock_eq cfg now k t
  rw [htail]
  split_ifs with h33 h35
  · exact removeBranch_cut_title k t tail n h33
  · exact removeBranch_cut_label k t tail n (by omega) h35
  · exact removeBranch_cut_digits k t tail n (by omega) hn

end Blocks

/-- The branch sends SIGKILL to the owners of the active timers and to nobody else. -/
def KillsOwners (cfg : Config) (now : ℕ) (d : Driver) : Prop :=
  ∀ buf : Buffer 1000, ∃ pids,
    removeBranch ((d.mytimerProcShow cfg now buf).take 149) = some pids ∧
      ∀ z : ℤ, z ∈ pids ↔ ∃ k, (d.timers k).Active ∧ z = (d.timers k).ownerPid

/-- The bytes of the fields of variable width up to the end of a first block. -/
def reportWidth (cfg : Config) (now : ℕ) (d : Driver) (t : TimerInfo) : ℕ :=
  (decimal (uptime cfg now d)).length + (decimal t.ownerPid).length + t.command.length +
    (decimal (Driver.remaining cfg now t)).length

/-- A pid that the first timer's command name spells is an owner's; and the second pid line
is read whole, or not at all with the pid known from the first block. -/
def RecoverableFrom (cfg : Config) (now : ℕ) (d : Driver) : List TimerInfo → Prop
  | [] => True
  | [t] => ∀ z ∈ falsePids t.command, z = t.ownerPid
  | t :: t' :: _ =>
    (∀ z ∈ falsePids t.command, z = t.ownerPid ∨ z = t'.ownerPid) ∧
      (reportWidth cfg now d t + (decimal t'.ownerPid).length ≤ 23 ∨
        26 ≤ reportWidth cfg now d t ∧
          ((t'.ownerPid:ℤ) = t.ownerPid ∨ (t'.ownerPid:ℤ) ∈ falsePids t.command))

instance (cfg : Config) (now : ℕ) (d : Driver) :
    (ts : List TimerInfo) → Decidable (RecoverableFrom cfg now d ts)
  | [] => isTrue trivial
  | [_] => inferInstanceAs (Decidable (∀ z ∈ _, _))
  | _ :: _ :: _ => inferInstanceAs (Decidable (_ ∧ _))

def Recoverable (cfg : Config) (now : ℕ) (d : Driver) : Prop :=
  RecoverableFrom cfg now d d.activeTimers

instance (cfg : Config) (now : ℕ) (d : Driver) : Decidable (Recoverable cfg now d) :=
  inferInstanceAs (Decidable (RecoverableFrom cfg now d d.activeTimers))

section Main
variable (cfg : Config) (now : ℕ) (d : Driver)

theorem activeTimers_eq : d.activeTimers =
    (if (d.timers 0).Active then [d.timers 0] else []) ++
      if (d.timers 1).Active then [d.timers 1] else [] := by
  by_cases h0 : (d.timers 0).Active <;> by_cases h1 : (d.timers 1).Active <;>
    simp [Driver.activeTimers, List.finRange_succ, h0, h1]

theorem owner_iff (z : ℤ) : (∃ k, (d.timers k).Active ∧ z = (d.timers k).ownerPid) ↔
    ((d.timers 0).Active ∧ z = (d.timers 0).ownerPid) ∨
      ((d.timers 1).Active ∧ z = (d.timers 1).ownerPid) := by
  constructor
  · intro hk
    obtain ⟨k, hk⟩ := hk
    rcases slot_cases k with rfl | rfl
    · exact Or.inl hk
    · exact Or.inr hk
  · intro h
    rcases h with h | h
    · exact ⟨0, h⟩
    · exact ⟨1, h⟩

/-- Only a single digit can be spelled. -/
theorem falsePids_le (c : List Byte) (z : ℤ) (hz : z ∈ falsePids c) : z ≤ 9 := by
  unfold falsePids at hz
  split_ifs at hz with hc
  · rw [List.mem_singleton.mp hz]
    unfold namedPid
    split_ifs with h
    · -- a name of 15 bytes has one byte from offset 14 on
      obtain ⟨b, hb⟩ : ∃ b, c.drop 14 = [b] := List.length_eq_one_iff.mp (by
        rw [List.length_drop]
        omega)
      rw [hb]
      exact atoi_single_le b
    · decide
  · cases hz

theorem killsOwners_iff (h : OwnersValid d) (r : Option (List ℤ))
    (hr : removeBranch ((d.procHead cfg now ++
      (shown cfg now d 0 ++ shown cfg now d 1)).take 149) = r) :
    KillsOwners cfg now d ↔ ∃ pids, r = some pids ∧ ∀ z : ℤ, z ∈ pids ↔
      ((d.timers 0).Active ∧ z = (d.timers 0).ownerPid) ∨
        ((d.timers 1).Active ∧ z = (d.timers 1).ownerPid) := by
  simp only [KillsOwners, mytimerProcShow_eq cfg now d h, hr, owner_iff]
  constructor
  · intro hall
    exact hall (Buffer.zero 1000)
  · intro hex _
    exact hex

/-- A report with at most one block is read whole. -/
theorem report_short (s : List Byte) (hs : s.length ≤ 97)
    (hshown : shown cfg now d 0 ++ shown cfg now d 1 = s) :
    removeBranch ((d.procHead cfg now ++ (shown cfg now d 0 ++ shown cfg now d 1)).take 149) =
      removeBranch s := by
  have hl := procHead_length cfg now d
  have hu := uptime_digits cfg now d
  rw [hshown, List.take_of_length_le (by rw [List.length_append]; omega), removeBranch_head]

theorem killsOwners_single (h : OwnersValid d) (k : Fin maxTimers) (hk : (d.timers k).Active)
    (hshown : shown cfg now d 0 ++ shown cfg now d 1 = shown cfg now d k)
    (howner : ∀ z : ℤ, ((d.timers 0).Active ∧ z = (d.timers 0).ownerPid) ∨
        ((d.timers 1).Active ∧ z = (d.timers 1).ownerPid) ↔ z = (d.timers k).ownerPid) :
    KillsOwners cfg now d ↔
      ∀ z ∈ falsePids (d.timers k).command, z = ((d.timers k).ownerPid : ℤ) := by
  have hblock : removeBranch (shown cfg now d k) =
      some (((d.timers k).ownerPid : ℤ) :: falsePids (d.timers k).command) := by
    have hb := removeBranch_block cfg now k (d.timers k) [] (h.command_length k hk)
    rw [List.append_nil] at hb
    rw [shown, if_pos hk, hb]
    simp [removeBranch, killLoop]
  rw [killsOwners_iff cfg now d h _ ((report_short cfg now d _
    (shown_length cfg now d h k) hshown).trans hblock)]
  simp only [howner]
  constructor
  · intro hex z hz
    obtain ⟨pids, hp, hall⟩ := hex
    obtain rfl := Option.some.inj hp
    exact (hall z).mp (List.mem_cons_of_mem _ hz)
  · intro hall
    refine ⟨_, rfl, fun z => ⟨fun hz => ?_, fun hz => by rw [hz]; exact List.mem_cons_self⟩⟩
    rcases List.mem_cons.mp hz with hz | hz
    · exact hz
    · exact hall z hz

/-- Two blocks: the second is cut behind the bytes that the first one leaves. -/
theorem report_double (h : OwnersValid d) (h0 : (d.timers 0).Active) (h1 : (d.timers 1).Active) :
    removeBranch ((d.procHead cfg now ++ (shown cfg now d 0 ++ shown cfg now d 1)).take 149) =
      (removeBranch ((Driver.procBlock cfg now 1 (d.timers 1)).take
        (59 - reportWidth cfg now d (d.timers 0)))).map fun pids =>
          ((d.timers 0).ownerPid:ℤ) :: (falsePids (d.timers 0).command ++ pids) := by
  have hl := procHead_length cfg now d
  have hb := procBlock_length cfg now 0 (d.timers 0)
  have hle : (d.procHead cfg now).length + (Driver.procBlock cfg now 0 (d.timers 0)).length =
      90 + reportWidth cfg now d (d.timers 0) := by
    unfold reportWidth
    omega
  have hwidth : reportWidth cfg now d (d.timers 0) ≤ 59 := by
    have hs := shown_length cfg now d h 0
    have hu := uptime_digits cfg now d
    rw [shown, if_pos h0] at hs
    omega
  have hcut : (d.procHead cfg now ++ (shown cfg now d 0 ++ shown cfg now d 1)).take 149 =
      d.procHead cfg now ++ (Driver.procBlock cfg now 0 (d.timers 0) ++
        (Driver.procBlock cfg now 1 (d.timers 1)).take
          (59 - reportWidth cfg now d (d.timers 0))) := by
    have h149 : 149 = (d.procHead cfg now).length +
        ((Driver.procBlock cfg now 0 (d.timers 0)).length +
          (59 - reportWidth cfg now d (d.timers 0))) := by omega
    conv_lhs => rw [h149]
    rw [shown, if_pos h0, shown, if_pos h1, List.take_length_add_append,
      List.take_length_add_append]
  rw [hcut, removeBranch_head, removeBranch_block _ _ _ _ _ (h.command_length 0 h0)]

/-- The pids of a report with two blocks are the two owners: nothing else may be among them,
and the second owner has to be. -/
theorem pids_iff (F l : List ℤ) (a b : ℤ) :
    (∃ pids, some (a :: (F ++ l)) = some pids ∧ ∀ z, z ∈ pids ↔ z = a ∨ z = b) ↔
      (∀ z ∈ F, z = a ∨ z = b) ∧ (∀ z ∈ l, z = a ∨ z = b) ∧ (b = a ∨ b ∈ F ∨ b ∈ l) := by
  simp only [Option.some.injEq, exists_eq_left', List.mem_cons, List.mem_append]
  constructor
  · intro hall
    refine ⟨fun z hz => (hall z).mp (by simp [hz]), fun z hz => (hall z).mp (by simp [hz]), ?_⟩
    exact (hall b).mpr (Or.inr rfl)
  · rintro ⟨hF, hl, hb⟩ z
    constructor
    · rintro (hz | hz | hz)
      · exact Or.inl hz
      · exact hF z hz
      · exact hl z hz
    · rintro (hz | hz)
      · exact Or.inl hz
      · rw [hz]
        exact hb

/-- A pid that is cut short stands for a smaller number: it is no owner, or an owner is missed. -/
theorem cut_pid_missed (F : List ℤ) (a n q : ℕ) (hF : ∀ z ∈ F, z ≤ 9) (ha : 0 < a) (hn : 0 < n)
    (hq : q < (decimal n).length)
    (hl : ∀ z ∈ [(digitRun 0 ((decimal n).take q) : ℤ)], z = a ∨ z = n)
    (hown : (n:ℤ) = a ∨ (n:ℤ) ∈ F ∨ (n:ℤ) ∈ [(digitRun 0 ((decimal n).take q) : ℤ)]) : False := by
  have hlt := digitRun_take_lt n q hn hq
  have hfirst := hl _ (List.mem_singleton_self _)
  rw [List.mem_singleton] at hown
  rcases hown with he | hf | he
  · omega
  · -- a pid of one digit that is cut is not seen at all, and the number read is 0
    have h9 := hF _ hf
    have hone := decimal_length_le n 1 (by decide) (by omega)
    obtain rfl : q = 0 := by omega
    simp only [List.take_zero, digitRun] at hfirst
    omega
  · omega

theorem killsOwners_double (h : OwnersValid d) (h0 : (d.timers 0).Active)
    (h1 : (d.timers 1).Active) :
    KillsOwners cfg now d ↔
      (∀ z ∈ falsePids (d.timers 0).command,
        z = (d.timers 0).ownerPid ∨ z = (d.timers 1).ownerPid) ∧
      (reportWidth cfg now d (d.timers 0) + (decimal (d.timers 1).ownerPid).length ≤ 23 ∨
        26 ≤ reportWidth cfg now d (d.timers 0) ∧
          (((d.timers 1).ownerPid:ℤ) = (d.timers 0).ownerPid ∨
            ((d.timers 1).ownerPid:ℤ) ∈ falsePids (d.timers 0).command)) := by
  have hp0 := h.pid_pos 0 h0
  have hp1 := h.pid_pos 1 h1
  have hX : 3 ≤ reportWidth cfg now d (d.timers 0) := by
    have hu := decimal_length_pos (uptime cfg now d)
    have hp := decimal_length_pos (d.timers 0).ownerPid
    have hr := decimal_length_pos (Driver.remaining cfg now (d.timers 0))
    unfold reportWidth
    omega
  rw [killsOwners_iff cfg now d h _ (report_double cfg now d h h0 h1),
    removeBranch_cut _ _ _ _ _ (by omega)]
  simp only [h0, h1, true_and]
  generalize reportWidth cfg now d (d.timers 0) = X at hX ⊢
  have hF := falsePids_le (d.timers 0).command
  generalize falsePids (d.timers 0).command = F at hF ⊢
  -- the cut comes behind the label, inside the label, or in front of the needle's end
  rcases Nat.lt_or_ge X 24 with h24 | h24
  · rw [if_neg (by omega), if_neg (by omega), Option.map_some, pids_iff]
    rcases Nat.lt_or_ge (59-X-36) (decimal (d.timers 1).ownerPid).length with hq | hq
    · constructor
      · intro hall
        exact (cut_pid_missed F _ _ _ hF hp0 hp1 hq hall.2.1 hall.2.2).elim
      · rintro ⟨-, hw | hw⟩ <;> omega
    · -- the second pid is read whole
      rw [List.take_of_length_le hq, digitRun_decimal]
      constructor
      · intro hall
        exact ⟨hall.1, Or.inl (by omega)⟩
      · intro hall
        exact ⟨hall.1, by simp, by simp⟩
  · rcases Nat.lt_or_ge X 26 with h26 | h26
    · -- the pointer leaves the text
      rw [if_neg (by omega), if_pos (by omega)]
      constructor
      · intro hex
        obtain ⟨pids, hpids, -⟩ := hex
        cases hpids
      · rintro ⟨-, hw | hw⟩ <;> omega
    · -- the second pid is not seen at all
      rw [if_pos (by omega), Option.map_some, pids_iff]
      constructor
      · intro hall
        exact ⟨hall.1, Or.inr ⟨h26, by simpa using hall.2.2⟩⟩
      · intro hcond
        obtain ⟨hall, hw⟩ := hcond
        refine ⟨hall, by simp, ?_⟩
        rcases hw with hw | hw
        · omega
        · simpa using hw.2

end Main

/-- Two timers, with what the report needs to be long or short. -/
def twoTimers (uptime : ℕ) : List Event :=
  [sampleWrite 12345 (by decide) "-m 2 x", .tick uptime,
    sampleWrite 12345 (by decide) "-s 300 bob", sampleWrite 12346 (by decide) "-s 300 alice"]

end DevKota.Lab3
