import DevKota.Lab3Listing

/-! The report of the lab3 driver under `/proc`, and how `ktimer -r` takes pids out of it. -/
namespace DevKota.Lab3
open CString Kernel

namespace Driver

def procHead (cfg : Config) (now : ℕ) (d : Driver) : List Byte :=
  ascii "module: mytimer\nuptime: " ++
    decimal (cfg.jiffiesToMsecs (jiffies now - d.moduleLoadTime)).toNat ++ ascii " ms\n"

def procTitle (k : Fin maxTimers) : List Byte :=
  if k.val = 0 then ascii "~~~ Timer 0 Active ~~~" else ascii "~~~ Timer 1 Active ~~~"

def procBlock (cfg : Config) (now : ℕ) (k : Fin maxTimers) (t : TimerInfo) : List Byte :=
  procTitle k ++ ascii "\ncalling pid: " ++ decimal t.ownerPid ++ ascii "\ncommand: " ++ t.command ++
    ascii "\nexpiration: " ++ decimal (remaining cfg now t) ++ ascii " s\n"

/-- The block of one timer is printed behind the string that `buf` holds. -/
def procAppend (cfg : Config) (now : ℕ) (d : Driver) (buf : Buffer 1000) (k : Fin maxTimers) :
    Buffer 1000 :=
  if (d.timers k).Active then
    buf.snprintf (cstr buf.bytes).length (procBlock cfg now k (d.timers k))
  else buf

/-- `mytimer_proc_show`, with what its local array holds on entry. -/
def mytimerProcShow (cfg : Config) (now : ℕ) (d : Driver) (buf : Buffer 1000) : List Byte :=
  let buf := buf.snprintf 0 (d.procHead cfg now)
  cstr ((List.finRange maxTimers).foldl (d.procAppend cfg now) buf).bytes

end Driver

def callingPid : List Byte := ascii "calling pid"

/-- `token + 13`: behind a short token lie the NUL that `strtok` put in and the text that
follows. The pointer is `none` when it leaves the text that was read. -/
def pidString (token : List Byte) (rest : Option (List Byte)) : Option (List Byte) :=
  let memory := token ++ match rest with
    | some r => 0 :: r
    | none => []
  if 13 ≤ memory.length then some (memory.drop 13) else none

/-- The token loop of `ktimer -r`: the pids that get SIGKILL. -/
def killLoop : List (List Byte × Option (List Byte)) → Option (List ℤ)
  | [] => some []
  | (token, rest) :: tokens =>
    if strstr token callingPid then
      (pidString token rest).bind fun pidStr => (killLoop tokens).map fun pids => atoi pidStr :: pids
    else killLoop tokens

/-- The `-r` branch on the bytes it read. -/
def removeBranch (bytes : List Byte) : Option (List ℤ) := killLoop (strtok 10 bytes)

section Tokens

theorem strstr_eq (s needle : List Byte) : strstr s needle = true ↔ needle <:+: s := by
  simp [strstr]

/-- A string that lacks a byte of the needle does not hold the needle. -/
theorem not_infix_of_not_mem (s : List Byte) (b : Byte) (hb : b ∈ callingPid) (hs : b ∉ s) :
    ¬ callingPid <:+: s := by
  intro h
  exact hs (h.subset hb)

theorem not_infix_of_short (s : List Byte) (hs : s.length < 11) : ¬ callingPid <:+: s := by
  intro h
  have hl := h.length_le
  have hc : callingPid.length = 11 := rfl
  omega

theorem killLoop_skip (cur s rest : List Byte) (h : ¬ callingPid <:+: cur ++ s) :
    killLoop (strtokFrom 10 cur (s ++ 10 :: rest)) = killLoop (strtok 10 rest) := by
  induction s generalizing cur with
  | nil =>
    rw [List.append_nil] at h
    by_cases hc : cur = []
    · simp [strtokFrom, hc, strtok]
    · have hs : strstr cur callingPid = false := by simpa [strstr] using h
      simp [strtokFrom, hc, killLoop, hs, strtok]
  | cons c s ih =>
    rw [List.cons_append, strtokFrom]
    by_cases hc : c = 10
    · -- the line ends here: what follows is scanned with an empty token
      have hs : ¬ callingPid <:+: [] ++ s := by
        intro hi
        apply h
        have hsuf : s <:+ cur ++ c :: s := ⟨cur ++ [c], by simp⟩
        exact List.IsInfix.trans hi hsuf.isInfix
      have hcur : strstr cur callingPid = false := by
        simp only [strstr, decide_eq_false_iff_not]
        intro hi
        exact h (hi.trans (List.prefix_append cur (c :: s)).isInfix)
      by_cases he : cur = []
      · simpa [hc, he] using ih [] hs
      · simpa [hc, he, killLoop, hcur] using ih [] hs
    · rw [if_pos hc]
      apply ih
      simpa using h

/-- Lines without the needle are passed over. -/
theorem removeBranch_skip (s rest : List Byte) (h : ¬ callingPid <:+: s) :
    removeBranch (s ++ 10 :: rest) = removeBranch rest :=
  killLoop_skip [] s rest h

theorem removeBranch_none (s : List Byte) (h : ¬ callingPid <:+: s) : removeBranch s = some [] := by
  have hall (ts : List (List Byte × Option (List Byte)))
      (hts : ∀ t ∈ ts, ¬ callingPid <:+: t.1) : killLoop ts = some [] := by
    induction ts with
    | nil => rfl
    | cons t ts ih =>
      have ht : strstr t.1 callingPid = false := by
        simpa only [strstr, decide_eq_false_iff_not] using hts t (by simp)
      rw [killLoop, ht]
      apply ih
      intro u hu
      exact hts u (List.mem_cons_of_mem _ hu)
  apply hall
  intro t ht hi
  exact h (hi.trans (strtok_piece 10 s t ht))

theorem removeBranch_line (line rest : List Byte) (hn : 10 ∉ line) (h : callingPid <:+: line) :
    removeBranch (line ++ 10 :: rest) =
      (pidString line (some rest)).bind fun p =>
        (removeBranch rest).map fun pids => atoi p :: pids := by
  have hne : line ≠ [] := by
    rintro rfl
    exact not_infix_of_short [] (by decide) h
  rw [removeBranch, strtok_line 10 line rest hn hne, killLoop, if_pos ((strstr_eq _ _).mpr h)]
  rfl

theorem removeBranch_last (line : List Byte) (hn : 10 ∉ line) (h : callingPid <:+: line) :
    removeBranch line = (pidString line none).map fun p => [atoi p] := by
  have hne : line ≠ [] := by
    rintro rfl
    exact not_infix_of_short [] (by decide) h
  rw [removeBranch, strtok_end 10 line hn hne, killLoop, if_pos ((strstr_eq _ _).mpr h)]
  cases pidString line none <;> rfl

end Tokens

section CommandLine

/-- The pid that a command name spells when it holds the text the client looks for: a name
of 15 bytes can put it on a line of its own, with one digit at the place of the pid. -/
def namedPid (command : List Byte) : ℤ :=
  if command.head? = some 10 ∧ command.length = 15 ∧
      strstr ((command.drop 1).takeWhile (· ≠ 10)) callingPid then
    atoi (command.drop 14)
  else 0

def falsePids (command : List Byte) : List ℤ :=
  if strstr command callingPid then [namedPid command] else []

/-- The needle does not start in the label of the line. -/
theorem not_infix_command (c : List Byte) (h : ¬ callingPid <:+: c) :
    ¬ callingPid <:+: ascii "command: " ++ c := by
  intro hi
  obtain ⟨a, b, hab⟩ := hi
  have hlabel : (ascii "command: ").length = 9 := rfl
  -- either it lies in the name, or its first two bytes would be in the label
  by_cases ha : 9 ≤ a.length
  · apply h
    refine ⟨a.drop 9, b, ?_⟩
    have hdrop := congrArg (List.drop 9) hab
    rw [List.drop_left' hlabel, List.append_assoc, List.drop_append_of_le_length ha] at hdrop
    rw [List.append_assoc]
    exact hdrop
  · have h0 : (ascii "command: " ++ c)[a.length]? = some 99 := by
      rw [← hab, List.append_assoc, List.getElem?_append_right (le_refl _), Nat.sub_self]
      rfl
    have h1 : (ascii "command: " ++ c)[a.length+1]? = some 97 := by
      rw [← hab, List.append_assoc, List.getElem?_append_right (by omega), Nat.add_sub_cancel_left]
      rfl
    generalize a.length = n at ha h0 h1
    interval_cases n <;> simp [ascii] at h0 h1

/-- The text behind the command line starts no number, and neither does its second byte. -/
theorem atoi_expiration (tail : List Byte) :
    atoi (ascii "expiration: " ++ tail) = 0 ∧ atoi ((ascii "expiration: " ++ tail).drop 1) = 0 ∧
      atoi (10 :: (ascii "expiration: " ++ tail)) = 0 := by
  have he : atoi (ascii "expiration: " ++ tail) = 0 :=
    atoi_of_letter 101 _ (by decide) (by decide) (by decide) (by decide)
  refine ⟨he, atoi_of_letter 120 _ (by decide) (by decide) (by decide) (by decide), ?_⟩
  rw [atoi_cons_single 10 _ he (by
    intro c hc
    obtain rfl := Option.some.inj hc
    decide)]
  rfl

/-- Behind a text of 14 bytes offset 13 is its last byte, wherever its first line ended. -/
theorem atoi_last_byte (w tail : List Byte) (b : Byte) (n : ℕ) (hw : w.length = 13) (hn : n ≤ 14)
    (hline : (w ++ [b] ++ 10 :: (ascii "expiration: " ++ tail))[n]? = some 10) :
    atoi (((w ++ [b] ++ 10 :: (ascii "expiration: " ++ tail)).set n 0).drop 13) = atoi [b] := by
  obtain ⟨-, -, h10⟩ := atoi_expiration tail
  have hz (x : List Byte) : atoi (0 :: x) = 0 :=
    atoi_of_letter 0 x (by decide) (by decide) (by decide) (by decide)
  have hdrop : (w ++ [b] ++ 10 :: (ascii "expiration: " ++ tail)).drop 13 =
      b :: 10 :: (ascii "expiration: " ++ tail) := by
    rw [List.append_assoc]
    exact List.drop_left' hw
  rw [List.drop_set, hdrop]
  split_ifs with hcut
  · exact atoi_cons_single b _ h10 (by
      intro c hc
      obtain rfl := Option.some.inj hc
      decide)
  · rcases Nat.lt_or_ge 13 n with hl | hl
    · have h1 : n - 13 = 1 := by omega
      rw [h1]
      exact atoi_cons_single b _ (hz _) (by
        intro c hc
        obtain rfl := Option.some.inj hc
        decide)
    · -- the line ends at the byte itself, which is its newline
      obtain rfl : n = 13 := by omega
      rw [List.append_assoc, List.getElem?_append_right (by omega), hw, Nat.sub_self] at hline
      obtain rfl : b = 10 := Option.some.inj hline
      exact hz _

/-- Behind a shorter text it leads into the next line, where no number starts. -/
theorem atoi_next_line (w tail : List Byte) (n : ℕ) (hw : 11 ≤ w.length) (hw' : w.length ≤ 13)
    (hn : n ≤ w.length) :
    atoi (((w ++ 10 :: (ascii "expiration: " ++ tail)).set n 0).drop 13) = 0 := by
  obtain ⟨h0, h1, h10⟩ := atoi_expiration tail
  have hdrop : (w ++ 10 :: (ascii "expiration: " ++ tail)).drop 13 =
      (10 :: (ascii "expiration: " ++ tail)).drop (13-w.length) := by
    rw [List.drop_append, List.drop_of_length_le (by omega), List.nil_append]
  rw [List.drop_set, hdrop]
  have hcases : w.length = 11 ∨ w.length = 12 ∨ w.length = 13 := by omega
  rcases hcases with hl | hl | hl
  · rw [if_pos (by omega), hl]
    exact h1
  · rw [if_pos (by omega), hl]
    exact h0
  · rw [hl]
    split_ifs with hcut
    · exact h10
    · obtain rfl : n = 13 := by omega
      exact atoi_of_letter 0 _ (by decide) (by decide) (by decide) (by decide)

/-- What is read behind a line `line` that starts the text `w` and holds the needle: only the
last byte of a text of 14 bytes counts. -/
theorem atoi_pidString (line r w tail : List Byte)
    (heq : line ++ 10 :: r = w ++ 10 :: (ascii "expiration: " ++ tail))
    (hline : 11 ≤ line.length) (hle : line.length ≤ w.length) (hw : w.length ≤ 14) :
    ∃ s, pidString line (some r) = some s ∧
      atoi s = if w.length = 14 then atoi (w.drop 13) else 0 := by
  have hlen := congrArg List.length heq
  have hexp : (ascii "expiration: ").length = 12 := rfl
  simp only [List.length_append, List.length_cons, hexp] at hlen
  -- the memory is the text with a NUL at the end of the line
  have hmem : line ++ 0 :: r = (w ++ 10 :: (ascii "expiration: " ++ tail)).set line.length 0 := by
    rw [← heq, List.set_append_right _ _ (le_refl _), Nat.sub_self]
    rfl
  have hend : (w ++ 10 :: (ascii "expiration: " ++ tail))[line.length]? = some 10 := by
    rw [← heq, List.getElem?_append_right (le_refl _), Nat.sub_self]
    rfl
  refine ⟨(line ++ 0 :: r).drop 13, ?_, ?_⟩
  · rw [pidString, if_pos]
    rw [List.length_append, List.length_cons]
    omega
  · rw [hmem]
    by_cases h14 : w.length = 14
    · obtain ⟨w', b, rfl⟩ : ∃ w' b, w = w' ++ [b] := by
        refine ⟨w.dropLast, w.getLast (List.ne_nil_of_length_pos (by omega)), ?_⟩
        exact (List.dropLast_append_getLast _).symm
      have hw' : w'.length = 13 := by simpa using h14
      rw [if_pos h14, List.drop_left' hw']
      exact atoi_last_byte w' tail b line.length hw' (by omega) hend
    · rw [if_neg h14]
      exact atoi_next_line w tail line.length (by omega) (by omega) hle

theorem split_line (s : List Byte) :
    10 ∉ s ∨ ∃ line rest, s = line ++ 10 :: rest ∧ 10 ∉ line := by
  by_cases h : 10 ∈ s
  · right
    obtain ⟨line, rest, hs, hn⟩ := List.eq_append_cons_of_mem h
    exact ⟨line, rest, hs, hn⟩
  · left
    exact h

theorem split_last_line (s : List Byte) :
    10 ∉ s ∨ ∃ lines line, s = lines ++ 10 :: line ∧ 10 ∉ line := by
  rcases split_line s.reverse with h | ⟨line, rest, hs, hn⟩
  · left
    simpa using h
  · right
    refine ⟨rest.reverse, line.reverse, ?_, by simpa using hn⟩
    have hrev := congrArg List.reverse hs
    simpa using hrev

/-- The lines of a text that holds the needle once, from the line with the needle on. -/
theorem removeBranch_needle (k q tail : List Byte) (hk : 10 ∉ k) (hq : q.length < 11) :
    ∃ line r, removeBranch (k ++ callingPid ++ q ++ 10 :: (ascii "expiration: " ++ tail)) =
        (pidString line (some r)).bind (fun p =>
          (removeBranch (ascii "expiration: " ++ tail)).map fun pids => atoi p :: pids) ∧
      line ++ 10 :: r = k ++ callingPid ++ q ++ 10 :: (ascii "expiration: " ++ tail) ∧
      ∃ q', line = k ++ callingPid ++ q' ∧ 10 ∉ q' ∧ q' <+: q := by
  have hneedle : 10 ∉ callingPid := by decide
  have hinf (q' : List Byte) : callingPid <:+: k ++ callingPid ++ q' := ⟨k, q', rfl⟩
  have hnl (q' : List Byte) (h : 10 ∉ q') : 10 ∉ k ++ callingPid ++ q' := by
    simp only [List.mem_append, not_or]
    exact ⟨⟨hk, hneedle⟩, h⟩
  -- a newline behind the needle ends the line before the text does
  rcases split_line q with hq10 | ⟨q', q'', rfl, hq'⟩
  · refine ⟨k ++ callingPid ++ q, _, ?_, rfl, q, rfl, hq10, List.prefix_refl q⟩
    exact removeBranch_line _ _ (hnl q hq10) (hinf q)
  · refine ⟨k ++ callingPid ++ q', q'' ++ 10 :: (ascii "expiration: " ++ tail), ?_, by simp, q',
      rfl, hq', List.prefix_append q' _⟩
    have hshort : ¬ callingPid <:+: q'' := by
      apply not_infix_of_short
      simp only [List.length_append, List.length_cons] at hq
      omega
    have htext : k ++ callingPid ++ (q' ++ 10 :: q'') ++ 10 :: (ascii "expiration: " ++ tail) =
        (k ++ callingPid ++ q') ++ 10 :: (q'' ++ 10 :: (ascii "expiration: " ++ tail)) := by simp
    rw [htext, removeBranch_line _ _ (hnl q' hq') (hinf q'), removeBranch_skip q'' _ hshort]

/-- On the labelled line itself the fixed offset points into the needle. -/
theorem atoi_label (p z : List Byte) (hp : p.length ≤ 4) :
    atoi ((ascii "command: " ++ p ++ callingPid ++ z).drop 13) = 0 := by
  have hlabel : (ascii "command: ").length = 9 := rfl
  have hdrop : (ascii "command: " ++ p ++ callingPid ++ z).drop 13 =
      (callingPid ++ z).drop (4-p.length) := by
    have h13 : 13 = (ascii "command: ").length + 4 := rfl
    rw [List.append_assoc, List.append_assoc, h13, List.drop_length_add_append, List.drop_append,
      List.drop_of_length_le hp, List.nil_append]
  have hletter (j : ℕ) (hj : j ≤ 4) : atoi ((callingPid ++ z).drop j) = 0 := by
    interval_cases j <;>
      exact atoi_of_letter _ _ (by decide) (by decide) (by decide) (by decide)
  rw [hdrop]
  exact hletter _ (by omega)

theorem takeWhile_line (s t : List Byte) (h : 10 ∉ s) :
    (s ++ t).takeWhile (· ≠ 10) = s ++ t.takeWhile (· ≠ 10) := by
  apply List.takeWhile_append_of_pos
  intro b hb
  have hb10 : b ≠ 10 := by
    intro he
    exact h (he ▸ hb)
  simpa using hb10

/-- A name that puts the needle on a later line spells a pid only if it starts with a newline
and fills all of its 15 bytes. -/
theorem namedPid_line (p0 k q : List Byte) (hk : 10 ∉ k)
    (hl : (p0 ++ 10 :: (k ++ callingPid ++ q)).length ≤ 15) :
    namedPid (p0 ++ 10 :: (k ++ callingPid ++ q)) =
      if (k ++ callingPid ++ q).length = 14 then atoi ((k ++ callingPid ++ q).drop 13) else 0 := by
  have hneedle : callingPid.length = 11 := rfl
  have hlen : (p0 ++ 10 :: (k ++ callingPid ++ q)).length =
      p0.length + 1 + (k ++ callingPid ++ q).length := by
    rw [List.length_append, List.length_cons]
    omega
  have h11 : 11 ≤ (k ++ callingPid ++ q).length := by
    simp only [List.length_append, hneedle]
    omega
  have hk' : 10 ∉ k ++ callingPid := by
    simp only [List.mem_append, not_or]
    exact ⟨hk, by decide⟩
  cases p0 with
  | nil =>
    have hhead : strstr ((k ++ callingPid ++ q).takeWhile (· ≠ 10)) callingPid = true := by
      apply (strstr_eq _ _).mpr
      rw [takeWhile_line (k ++ callingPid) q hk']
      exact ⟨k, q.takeWhile (· ≠ 10), rfl⟩
    simp only [List.nil_append, List.length_nil] at hlen hl ⊢
    rw [namedPid]
    by_cases h14 : (k ++ callingPid ++ q).length = 14
    · rw [if_pos ⟨rfl, by omega, hhead⟩, if_pos h14]
      rfl
    · rw [if_neg (fun h => h14 (by omega)), if_neg h14]
  | cons x p0 =>
    rw [List.length_cons] at hlen
    rw [if_neg (by omega), namedPid, if_neg]
    intro h
    -- the needle would have to fit into the bytes before the second newline
    have hpre : ((x :: p0 ++ 10 :: (k ++ callingPid ++ q)).drop 1).takeWhile (· ≠ 10) <+:
        p0 := by
      have hdrop : (x :: p0 ++ 10 :: (k ++ callingPid ++ q)).drop 1 =
          p0 ++ 10 :: (k ++ callingPid ++ q) := rfl
      rw [hdrop, List.takeWhile_append]
      split_ifs
      · simp
      · exact List.takeWhile_prefix _
    have hshort := hpre.length_le
    exact not_infix_of_short _ (by omega) ((strstr_eq _ _).mp h.2.2)

/-- The needle on the labelled line spells nothing: 0 is signalled. -/
theorem removeBranch_named_label (p q tail : List Byte) (hp : 10 ∉ p)
    (hc : (p ++ callingPid ++ q).length ≤ 15) :
    removeBranch (ascii "command: " ++ (p ++ callingPid ++ q) ++
        10 :: (ascii "expiration: " ++ tail)) =
      (removeBranch (ascii "expiration: " ++ tail)).map fun pids =>
        namedPid (p ++ callingPid ++ q) :: pids := by
  have hneedle : callingPid.length = 11 := rfl
  simp only [List.length_append, hneedle] at hc
  have hk : 10 ∉ ascii "command: " ++ p := by
    simp only [List.mem_append, not_or]
    exact ⟨by decide, hp⟩
  obtain ⟨line, r, hrem, -, q', rfl, -⟩ :=
    removeBranch_needle (ascii "command: " ++ p) q tail hk (by omega)
  have htext : ascii "command: " ++ (p ++ callingPid ++ q) ++ 10 :: (ascii "expiration: " ++ tail) =
      ascii "command: " ++ p ++ callingPid ++ q ++ 10 :: (ascii "expiration: " ++ tail) := by
    simp only [List.append_assoc]
  have hlong : 13 ≤ (ascii "command: " ++ p ++ callingPid ++ q' ++ 0 :: r).length := by
    have hlabel : (ascii "command: ").length = 9 := rfl
    simp only [List.length_append, hlabel, hneedle]
    omega
  -- a name that starts with a newline has the needle on a later line
  have hzero : namedPid (p ++ callingPid ++ q) = 0 := by
    rw [namedPid, if_neg]
    intro hn
    cases p with
    | nil =>
      have h99 : (99 : Byte) = 10 := Option.some.inj hn.1
      exact absurd h99 (by decide)
    | cons x p =>
      obtain rfl : x = 10 := Option.some.inj hn.1
      simp at hp
  rw [htext, hrem, pidString, if_pos hlong, Option.bind_some, hzero, List.append_assoc _ q',
    atoi_label p _ (by omega)]

theorem removeBranch_named_line (p k q tail : List Byte) (hk : 10 ∉ k)
    (hc : (p ++ 10 :: (k ++ callingPid ++ q)).length ≤ 15) :
    removeBranch (ascii "command: " ++ (p ++ 10 :: (k ++ callingPid ++ q)) ++
        10 :: (ascii "expiration: " ++ tail)) =
      (removeBranch (ascii "expiration: " ++ tail)).map fun pids =>
        namedPid (p ++ 10 :: (k ++ callingPid ++ q)) :: pids := by
  have hneedle : callingPid.length = 11 := rfl
  rw [namedPid_line p k q hk hc]
  simp only [List.length_append, List.length_cons, hneedle] at hc
  have hshort : ¬ callingPid <:+: ascii "command: " ++ p := by
    apply not_infix_command
    apply not_infix_of_short
    omega
  obtain ⟨line, r, hrem, htext, q', rfl, -, hq'⟩ := removeBranch_needle k q tail hk (by omega)
  have hq'len := hq'.length_le
  obtain ⟨s, hs, hval⟩ := atoi_pidString _ r (k ++ callingPid ++ q) tail htext
    (by simp only [List.length_append, hneedle]; omega)
    (by simp only [List.length_append]; omega)
    (by simp only [List.length_append, hneedle]; omega)
  have hsplit : ascii "command: " ++ (p ++ 10 :: (k ++ callingPid ++ q)) ++
        10 :: (ascii "expiration: " ++ tail) =
      (ascii "command: " ++ p) ++ 10 :: (k ++ callingPid ++ q ++
        10 :: (ascii "expiration: " ++ tail)) := by simp
  rw [hsplit, removeBranch_skip _ _ hshort, hrem, hs, Option.bind_some, hval]

/-- What the client takes from the command line of one timer. -/
theorem removeBranch_command (c tail : List Byte) (hc : c.length ≤ 15) :
    removeBranch (ascii "command: " ++ c ++ 10 :: (ascii "expiration: " ++ tail)) =
      (removeBranch (ascii "expiration: " ++ tail)).map fun pids => falsePids c ++ pids := by
  by_cases h : callingPid <:+: c
  · have hfalse : falsePids c = [namedPid c] := if_pos ((strstr_eq _ _).mpr h)
    obtain ⟨p, q, rfl⟩ := h
    rw [hfalse]
    rcases split_last_line p with hp | ⟨p0, k, rfl, hk⟩
    · exact removeBranch_named_label p q tail hp hc
    · have hname : p0 ++ 10 :: k ++ callingPid ++ q = p0 ++ 10 :: (k ++ callingPid ++ q) := by simp
      rw [hname] at hc ⊢
      exact removeBranch_named_line p0 k q tail hk hc
  · have hfalse : falsePids c = [] := by
      simp [falsePids, strstr, h]
    rw [removeBranch_skip _ _ (not_infix_command c h), hfalse]
    cases removeBranch (ascii "expiration: " ++ tail) <;> rfl

end CommandLine

end DevKota.Lab3
