import DevKota.CString

/-! The searching functions of `<string.h>` on byte lists: `strtok`, `strrchr`, `strstr`. -/
namespace CString

/-- The tokens that successive `strtok` calls return, each with the text behind the delimiter
that closed it, or `none` where the string itself ended. -/
def strtokFrom (d : Byte) : List Byte → List Byte → List (List Byte × Option (List Byte))
  | cur, c :: s =>
    if c ≠ d then strtokFrom d (cur ++ [c]) s
    -- delimiters in front of a token are skipped, so no token is empty
    else if cur = [] then strtokFrom d [] s
    else (cur, some s) :: strtokFrom d [] s
  | cur, [] => if cur = [] then [] else [(cur, none)]

def strtok (d : Byte) (s : List Byte) : List (List Byte × Option (List Byte)) :=
  strtokFrom d [] s

@[simp] theorem strtok_nil (d : Byte) : strtok d [] = [] := rfl

theorem strtokFrom_line (d : Byte) (cur line rest : List Byte) (hd : d ∉ line)
    (hne : cur ++ line ≠ []) :
    strtokFrom d cur (line ++ d :: rest) = (cur ++ line, some rest) :: strtok d rest := by
  induction line generalizing cur with
  | nil =>
    have hc : cur ≠ [] := by simpa using hne
    simp [strtokFrom, strtok, hc]
  | cons c line ih =>
    have hc : c ≠ d := fun h => hd (by simp [h])
    rw [List.cons_append, strtokFrom, if_pos hc,
      ih (cur ++ [c]) (fun h => hd (List.mem_cons_of_mem _ h)) (by simp)]
    simp

theorem strtokFrom_end (d : Byte) (cur line : List Byte) (hd : d ∉ line) (hne : cur ++ line ≠ []) :
    strtokFrom d cur line = [(cur ++ line, none)] := by
  induction line generalizing cur with
  | nil =>
    have hc : cur ≠ [] := by simpa using hne
    simp [strtokFrom, hc]
  | cons c line ih =>
    have hc : c ≠ d := fun h => hd (by simp [h])
    rw [strtokFrom, if_pos hc, ih (cur ++ [c]) (fun h => hd (List.mem_cons_of_mem _ h)) (by simp)]
    simp

/-- A closed line in front is the first token. -/
theorem strtok_line (d : Byte) (line rest : List Byte) (hd : d ∉ line) (hne : line ≠ []) :
    strtok d (line ++ d :: rest) = (line, some rest) :: strtok d rest :=
  strtokFrom_line d [] line rest hd hne

/-- An open line is the only token. -/
theorem strtok_end (d : Byte) (line : List Byte) (hd : d ∉ line) (hne : line ≠ []) :
    strtok d line = [(line, none)] :=
  strtokFrom_end d [] line hd hne

theorem not_mem_strtokFrom (d : Byte) (cur s : List Byte) (hc : d ∉ cur)
    (t : List Byte × Option (List Byte)) (ht : t ∈ strtokFrom d cur s) : d ∉ t.1 := by
  induction s generalizing cur with
  | nil =>
    simp only [strtokFrom] at ht
    split_ifs at ht
    · cases ht
    · rw [List.mem_singleton.mp ht]
      exact hc
  | cons c s ih =>
    simp only [strtokFrom] at ht
    split_ifs at ht with hcd hcur
    · refine ih (cur ++ [c]) ?_ ht
      simp [hc, Ne.symm hcd]
    · exact ih [] (by simp) ht
    · rcases List.mem_cons.mp ht with rfl | ht
      · exact hc
      · exact ih [] (by simp) ht

/-- No token holds a delimiter. -/
theorem not_mem_strtok (d : Byte) (s : List Byte) (t : List Byte × Option (List Byte))
    (ht : t ∈ strtok d s) : d ∉ t.1 :=
  not_mem_strtokFrom d [] s (by simp) t ht

theorem strtokFrom_piece (d : Byte) (cur s : List Byte) (t : List Byte × Option (List Byte))
    (ht : t ∈ strtokFrom d cur s) : t.1 <:+: cur ++ s := by
  induction s generalizing cur with
  | nil =>
    simp only [strtokFrom] at ht
    split_ifs at ht
    · cases ht
    · rw [List.mem_singleton.mp ht, List.append_nil]
  | cons c s ih =>
    have hsuf : s <:+: cur ++ c :: s := ⟨cur ++ [c], [], by simp⟩
    simp only [strtokFrom] at ht
    split_ifs at ht with hcd hcur
    -- the byte joins the current token, is skipped, or closes the token
    · simpa using ih (cur ++ [c]) ht
    · exact (ih [] ht).trans hsuf
    · rcases List.mem_cons.mp ht with rfl | ht
      · exact (List.prefix_append cur (c :: s)).isInfix
      · exact (ih [] ht).trans hsuf

theorem strtok_piece (d : Byte) (s : List Byte) (t : List Byte × Option (List Byte))
    (ht : t ∈ strtok d s) : t.1 <:+: s :=
  strtokFrom_piece d [] s t ht

/-- The text before the last occurrence that `strrchr` finds; `none` for its NULL. -/
def beforeLast (c : Byte) : List Byte → Option (List Byte)
  | x :: s =>
    -- an occurrence further right wins
    match beforeLast c s with
    | some p => some (x :: p)
    | none => if x = c then some [] else none
  | [] => none

theorem beforeLast_none (c : Byte) (s : List Byte) (h : c ∉ s) : beforeLast c s = none := by
  induction s with
  | nil => rfl
  | cons x s ih =>
    have hx : x ≠ c := fun hx => h (by simp [hx])
    simp [beforeLast, ih fun hs => h (List.mem_cons_of_mem _ hs), hx]

theorem beforeLast_append (c : Byte) (p s : List Byte) (h : c ∉ s) :
    beforeLast c (p ++ c :: s) = some p := by
  induction p with
  | nil => simp [beforeLast, beforeLast_none c s h]
  | cons x p ih => simp [beforeLast, ih]

theorem beforeLast_subset (c : Byte) (s p : List Byte) (h : beforeLast c s = some p) : p ⊆ s := by
  induction s generalizing p with
  | nil => cases h
  | cons x s ih =>
    simp only [beforeLast] at h
    split at h
    · rename_i q hq
      obtain rfl := Option.some.inj h
      exact List.cons_subset_cons x (ih q hq)
    · split_ifs at h
      obtain rfl := Option.some.inj h
      exact List.nil_subset _

/-- `strstr(s, needle) != NULL`. -/
def strstr (s needle : List Byte) : Bool := needle <:+: s

end CString
