import DevKota.Lab3Unload
import DevKota.CTokens

/-! The lab3 command-line client, and which of its writes the driver takes. -/
namespace DevKota.Lab3
open CString Kernel Runs

/-- A program argument. -/
structure Arg where
  text : List Byte
  text_zero : 0 ∉ text

/-- The invocations that write to the device. Formatting also reads the argument slots behind
the ones that were given, which may hold anything. -/
inductive Invocation
  | set (sec msg : Arg)
  | count (n third : Arg)
  | remove (second third : Arg)

namespace Invocation

/-- `"%s %s %s"` with `argv[1]`, `argv[2]` and `argv[3]`; for `-s` the later format strings
give the same text. -/
def formatted : Invocation → List Byte
  | set sec msg => ascii "-s " ++ sec.text ++ ascii " " ++ msg.text
  | count n third => ascii "-m " ++ n.text ++ ascii " " ++ third.text
  | remove second third => ascii "-r " ++ second.text ++ ascii " " ++ third.text

/-- `to_kernel` at the write: cleared, then formatted into its 150 bytes, for `-s` twice. -/
def toKernel (v : Invocation) : Buffer 150 :=
  let b := (Buffer.zero 150).snprintf 0 v.formatted
  match v with
  | set _ _ => b.snprintf 0 v.formatted
  | _ => b

/-- `write(charFile, to_kernel, strlen(to_kernel) + 1)`. -/
def written (v : Invocation) : UserBuf :=
  ⟨v.toKernel.bytes.take ((cstr v.toKernel.bytes).length + 1), true⟩

theorem formatted_zero (v : Invocation) : 0 ∉ v.formatted := by
  have h3 (s : String) (a b : Arg) (hs : 0 ∉ ascii s) :
      0 ∉ ascii s ++ a.text ++ ascii " " ++ b.text := by
    simp only [List.mem_append, not_or]
    exact ⟨⟨⟨hs, a.text_zero⟩, by decide⟩, b.text_zero⟩
  cases v with
  | set sec msg => exact h3 "-s " sec msg (by decide)
  | count n third => exact h3 "-m " n third (by decide)
  | remove second third => exact h3 "-r " second third (by decide)

end Invocation

/-- What the client hands to the driver: the text as far as it fits, and its NUL. -/
theorem written_bytes (v : Invocation) :
    v.written.bytes = v.formatted.take 149 ++ [0] := by
  have hprefix (b : Buffer 150) : ∃ r, (b.snprintf 0 v.formatted).bytes =
      v.formatted.take 149 ++ 0 :: r := by
    refine ⟨b.bytes.drop ((v.formatted.take 149).length + 1), ?_⟩
    rw [Buffer.snprintf, if_pos (by decide), Buffer.overwrite_bytes _ _ _ (by simp)]
    simp
  -- formatting a second time writes the same bytes again
  have htk : ∃ r, v.toKernel.bytes = v.formatted.take 149 ++ 0 :: r := by
    cases v <;> exact hprefix _
  obtain ⟨r, hr⟩ := htk
  have hz : 0 ∉ v.formatted.take 149 := fun h => v.formatted_zero (List.mem_of_mem_take h)
  simp only [Invocation.written, hr, cstr_append_zero _ r hz]
  rw [List.take_append, List.take_of_length_le (by omega)]
  simp

theorem written_length (v : Invocation) :
    v.written.bytes.length = min 149 v.formatted.length + 1 := by
  rw [written_bytes]
  simp

theorem commandOf_written (v : Invocation) :
    commandOf v.written = match v with
      | .set _ _ => .set
      | .count _ _ => .capacity
      | .remove _ _ => .remove := by
  have hsecond (a b : Byte) (rest : List Byte) (h : v.formatted = a :: b :: rest) :
      (pad 150 v.written.bytes).getD 1 0 = b := by
    rw [written_bytes, h]
    rfl
  unfold commandOf
  cases v with
  | set sec msg => rw [hsecond 45 115 _ rfl]; rfl
  | count n third => rw [hsecond 45 109 _ rfl]; rfl
  | remove second third => rw [hsecond 45 114 _ rfl]; rfl

section ArmedActive

/-- Active slots are armed, and armed slots call their own handler. Unlike `Inv` this needs
no bound on the messages. -/
def ActiveArmed (d : Driver) : Prop :=
  ∀ k, ((d.timers k).Active → (d.timers k).timer.pending = true) ∧
    ((d.timers k).timer.pending = true →
      (d.timers k).timer.function = some (Driver.handlerFor k))

theorem activeArmed_store (d d' : Driver) (h : ActiveArmed d) (k : Fin maxTimers) (t : TimerInfo)
    (hd : d'.timers = Function.update d.timers k t)
    (ht : (t.Active → t.timer.pending = true) ∧
      (t.timer.pending = true → t.timer.function = some (Driver.handlerFor k))) :
    ActiveArmed d' := by
  intro j
  rw [hd]
  by_cases hj : j = k
  · subst hj
    rw [Function.update_self]
    exact ht
  · rw [Function.update_of_ne hj]
    exact h j

theorem activeArmed_stop (d : Driver) (h : ActiveArmed d) (k : Fin maxTimers) :
    ((Driver.stopTimer (d.timers k)).Active →
        (Driver.stopTimer (d.timers k)).timer.pending = true) ∧
      ((Driver.stopTimer (d.timers k)).timer.pending = true →
        (Driver.stopTimer (d.timers k)).timer.function = some (Driver.handlerFor k)) := by
  unfold Driver.stopTimer
  split_ifs
  · exact ⟨fun ha => absurd rfl ha, fun hp => by cases hp⟩
  · exact h k

theorem activeArmed_write (cfg : Config) (now : ℕ) (current : Task) (d : Driver) (buf : UserBuf)
    (h : ActiveArmed d) : ActiveArmed (d.mytimerWrite cfg now current buf).1 := by
  rw [mytimerWrite_eq]
  by_cases ha : accepted buf
  · rw [if_pos ha]
    cases commandOf buf with
    | remove => exact activeArmed_stop d h
    | capacity =>
      change ActiveArmed (d.writeCapacity _)
      unfold Driver.writeCapacity
      split_ifs <;> exact h
    | set =>
      change ActiveArmed (d.writeSet cfg now current _)
      unfold Driver.writeSet
      split
      · rename_i k hk
        -- an update keeps the handler that the slot was set up with
        have hact := (findMsg_some d _ k (parseMsg_zero _) hk).1
        apply activeArmed_store d _ h k _ rfl
        exact ⟨fun _ => rfl, fun _ => (h k).2 ((h k).1 hact)⟩
      · split_ifs
        · split
          · rename_i i _
            -- armed last, so it does not matter whether the message cleared the flag
            apply activeArmed_store d _ h i _ rfl
            exact ⟨fun _ => rfl, fun _ => rfl⟩
          · exact h
        · exact h
    | other => exact h
  · rw [if_neg ha]
    exact h

theorem activeArmed_expire (d d' : Driver) (pid : ℕ) (k : Fin maxTimers) (h : ActiveArmed d)
    (hp : (d.timers k).timer.pending = true) (he : d.expire k = some (d',pid)) :
    ActiveArmed d' := by
  rw [expire_eq d k ((h k).2 hp)] at he
  obtain rfl := (Prod.mk.inj (Option.some.inj he)).1
  apply activeArmed_store d _ h k _ rfl
  exact ⟨fun ha => absurd rfl ha, fun hq => by cases hq⟩

/-- In every run, whatever is written, active slots are armed. -/
theorem activeArmed_reach (cfg : Config) (load : ℕ) (s : State)
    (h : Reach (step cfg) (fun _ _ => True) (loaded load) s) : ActiveArmed s.driver := by
  refine reach_invariant (I := fun s => ActiveArmed s.driver) ?_ h ?_
  · intro s e t hi _ hs
    cases e with
    | tick ticks =>
      obtain rfl := Option.some.inj hs
      exact hi
    | write current buf =>
      obtain rfl := Option.some.inj hs
      exact activeArmed_write cfg s.now current s.driver buf hi
    | fire k =>
      simp only [step] at hs
      split_ifs at hs with hx
      obtain ⟨r, hr, rfl⟩ := Option.map_eq_some_iff.mp hs
      exact activeArmed_expire s.driver r.1 r.2 k hi hx.1 hr
    | read count pos =>
      obtain rfl := Option.some.inj hs
      rw [mytimerRead_fst]
      exact hi
    | procRead =>
      obtain rfl := Option.some.inj hs
      exact hi
  · intro k
    exact ⟨fun ha => absurd rfl ha, fun hp => by cases hp⟩

end ArmedActive

/-- The driver takes the client's write: the count fits, no run ends in a state where it is
rejected, `-r` empties the table and `-s` and `-m` are carried out. -/
def Taken (v : Invocation) : Prop :=
  v.written.bytes.length ≤ 149 ∧
  ∀ (cfg : Config) (load : ℕ) (s : State) (current : Task),
    Reach (step cfg) (fun _ _ => True) (loaded load) s →
    (s.driver.mytimerWrite cfg s.now current v.written).2 = v.written.bytes.length ∧
    match v with
    | .set _ _ => (s.driver.mytimerWrite cfg s.now current v.written).1 =
        s.driver.writeSet cfg s.now current (pad 150 v.written.bytes)
    | .count _ _ => (s.driver.mytimerWrite cfg s.now current v.written).1 =
        s.driver.writeCapacity (pad 150 v.written.bytes)
    | .remove _ _ =>
        (∀ k, ¬ ((s.driver.mytimerWrite cfg s.now current v.written).1.timers k).Active) ∧
        (s.driver.mytimerWrite cfg s.now current v.written).1.numberActiveTimers = 0

/-- A write is taken exactly when the formatted command has at most 148 bytes. -/
theorem client_write_taken_iff (v : Invocation) : Taken v ↔ v.formatted.length ≤ 148 := by
  constructor
  · intro h
    have hl := h.1
    rw [written_length] at hl
    omega
  · intro hl
    have hlen : v.written.bytes.length ≤ 149 := by
      rw [written_length]
      omega
    refine ⟨hlen, fun cfg load s current hr => ?_⟩
    have hw := mytimerWrite_eq cfg s.now current s.driver v.written
    rw [if_pos ⟨hlen, rfl⟩, commandOf_written] at hw
    refine ⟨by rw [hw], ?_⟩
    cases v with
    | set sec msg => rw [hw]
    | count n third => rw [hw]
    | remove second third =>
      -- the loop skips slots that are active and not armed, but there are none
      have harmed := activeArmed_reach cfg load s hr
      rw [hw]
      exact ⟨fun k => (stopTimer_slot _ (harmed k).1).2, rfl⟩

/-- A set command of 149 bytes is written with a count of 150 and rejected. -/
theorem client_write_rejected : ¬ ∀ v, Taken v := by
  intro hall
  have hz : 0 ∉ List.replicate 144 (97 : Byte) := by
    intro h
    exact absurd (List.eq_of_mem_replicate h) (by decide)
  have h := (client_write_taken_iff
    (.set ⟨ascii "5", by decide⟩ ⟨List.replicate 144 97, hz⟩)).mp (hall _)
  simp [Invocation.formatted, ascii] at h

end DevKota.Lab3
