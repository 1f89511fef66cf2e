import DevKota.KernelStrings

/-! Strings in a char array with every access checked: a pointer is NULL or an index, and a string
function fails on NULL and at the end of the array. -/
namespace CString
open Kernel

inductive Fault
  | outside
  | null
  deriving DecidableEq

/-- Looking for a byte from the head of an array on: its index, or `none` at the NUL. -/
def find (d : Byte) : List Byte → Except Fault (Option ℕ)
  | [] => .error .outside
  | c :: s =>
    if c = 0 then .ok none
    else if c = d then .ok (some 0)
    else (find d s).map fun k => k.map (· + 1)

/-- Reading a string up to its NUL. -/
def scan : List Byte → Except Fault (List Byte)
  | [] => .error .outside
  | c :: s => if c = 0 then .ok [] else (scan s).map (c :: ·)

namespace Buffer
variable {n : ℕ}

/-- `b[i]`. -/
def load (b : Buffer n) (i : ℕ) : Except Fault Byte :=
  match b.bytes[i]? with
  | some c => .ok c
  | none => .error .outside

/-- `b[i] = x`. -/
def store (b : Buffer n) (i : ℕ) (x : Byte) : Except Fault (Buffer n) :=
  if i < n then .ok (b.set i x) else .error .outside

/-- The string that a function is handed. -/
def stringAt (b : Buffer n) : Option ℕ → Except Fault (List Byte)
  | none => .error .null
  | some i => scan (b.bytes.drop i)

/-- `strsep` on a cursor: the token, the new cursor and the array, where a NUL replaces the
delimiter. -/
def strsepAt (b : Buffer n) (d : Byte) : Option ℕ → Except Fault (Option ℕ × Option ℕ × Buffer n)
  | none => .ok (none, none, b)
  | some i => (find d (b.bytes.drop i)).bind fun k =>
    match k with
    | none => .ok (some i, none, b)
    | some k => (b.store (i+k) 0).map fun b => (some i, some (i+k+1), b)

end Buffer

theorem scan_eq (s : List Byte) (h : 0 ∈ s) : scan s = .ok (cstr s) := by
  induction s with
  | nil => cases h
  | cons c s ih =>
    rw [scan, cstr_cons]
    split_ifs with hc
    · rfl
    · rw [ih ((List.mem_cons.mp h).resolve_left (Ne.symm hc))]
      rfl

/-- In a terminated array the search ends at the NUL or splits the array at the delimiter. -/
theorem find_cases (d : Byte) (s : List Byte) (h : 0 ∈ s) :
    (find d s = .ok none ∧ d ∉ cstr s) ∨
      ∃ p rest, s = p ++ d :: rest ∧ find d s = .ok (some p.length) ∧ 0 ∉ p ∧ d ∉ p ∧ d ≠ 0 := by
  induction s with
  | nil => cases h
  | cons c s ih =>
    rw [find, cstr_cons]
    by_cases hc : c = 0
    · simp [hc]
    · by_cases hd : c = d
      · subst hd
        exact Or.inr ⟨[], s, rfl, by simp [hc], by simp, by simp, hc⟩
      · rw [if_neg hc, if_neg hc, if_neg hd]
        rcases ih ((List.mem_cons.mp h).resolve_left (Ne.symm hc)) with
          ⟨hf, hnot⟩ | ⟨p, rest, rfl, hf, h0, hp, hd0⟩
        · left
          rw [hf]
          exact ⟨rfl, by simp [hnot, Ne.symm hd]⟩
        · right
          rw [hf]
          exact ⟨c :: p, rest, rfl, rfl, by simp [h0, Ne.symm hc], by simp [hp, Ne.symm hd], hd0⟩

namespace Buffer
variable {n : ℕ} (b : Buffer n)

theorem stringAt_eq (i : ℕ) (h : 0 ∈ b.bytes.drop i) :
    b.stringAt (some i) = .ok (cstr (b.bytes.drop i)) := scan_eq _ h

/-- On a terminated string the token and what is left are those of `strsep`, and what is left is
terminated again. -/
theorem strsepAt_eq (d : Byte) (i : ℕ) (h : 0 ∈ b.bytes.drop i) :
    ∃ cursor b', b.strsepAt d (some i) = .ok (some i, cursor, b') ∧
      b'.stringAt (some i) = .ok (strsep d (cstr (b.bytes.drop i))).1 ∧
      (strsep d (cstr (b.bytes.drop i))).2 = cursor.map (fun j => cstr (b'.bytes.drop j)) ∧
      ∀ j, cursor = some j → 0 ∈ b'.bytes.drop j := by
  rcases find_cases d _ h with ⟨hf, hnot⟩ | ⟨p, rest, hsplit, hf, h0, hp, hd⟩
  · refine ⟨none, b, ?_, ?_, ?_, fun j hj => by cases hj⟩
    · simp only [strsepAt, hf]
      rfl
    · rw [stringAt_eq b i h, strsep_of_not_mem d _ hnot]
    · rw [strsep_of_not_mem d _ hnot]
      rfl
  · have hlen : i + p.length < n := by
      have hl := congrArg List.length hsplit
      rw [List.length_drop, b.length_eq, List.length_append, List.length_cons] at hl
      omega
    have hrest : 0 ∈ rest := by
      rw [hsplit, List.mem_append, List.mem_cons] at h
      exact (h.resolve_left h0).resolve_left (Ne.symm hd)
    have hclosed : (b.set (i+p.length) 0).bytes.drop i = p ++ 0 :: rest := by
      rw [Buffer.set_bytes, List.drop_set, if_neg (by omega), hsplit, Nat.add_sub_cancel_left,
        List.set_append_right _ _ (le_refl _), Nat.sub_self]
      rfl
    have hbehind : (b.set (i+p.length) 0).bytes.drop (i+p.length+1) = rest := by
      rw [Nat.add_assoc, ← List.drop_drop, hclosed, List.drop_length_add_append]
      rfl
    have htext : cstr (b.bytes.drop i) = p ++ d :: cstr rest := by
      rw [hsplit, cstr_append_of_not_mem p _ h0, cstr_cons, if_neg hd]
    have hterm : 0 ∈ (b.set (i+p.length) 0).bytes.drop i := by
      rw [hclosed]
      simp
    rw [htext, strsep_append d p _ hp]
    refine ⟨some (i+p.length+1), b.set (i+p.length) 0, ?_, ?_, ?_, ?_⟩
    · simp only [strsepAt, hf, Except.bind, store, if_pos hlen]
      rfl
    · rw [stringAt_eq _ i hterm, hclosed, cstr_append_zero p rest h0]
    · rw [Option.map_some, hbehind]
    · intro j hj
      rw [← Option.some.inj hj, hbehind]
      exact hrest

end Buffer

end CString
