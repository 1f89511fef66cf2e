import DevKota.Hw3Sort
import DevKota.CString

/-! The two vertex sorts as whole programs: from the text of a file to the text that is printed. -/
namespace DevKota.Hw3.Vectors
open CString SortKeys

def MAXARRAY : ℕ := 60000

/-- The digits of a `"%d"` conversion: their value and the text behind them. -/
def scanDigits (s : List Byte) : Option (ℕ × List Byte) :=
  if s.takeWhile isDigit = [] then none else some (digitRun 0 s, s.dropWhile isDigit)

/-- `fscanf` with `"%d"`: white space, one sign, digits. -/
def scanInt (s : List Byte) : Option (ℤ × List Byte) :=
  match s.dropWhile isSpace with
  -- '-' and '+'
  | 45 :: t => (scanDigits t).map fun r => (-(r.1:ℤ), r.2)
  | 43 :: t => (scanDigits t).map fun r => ((r.1:ℤ), r.2)
  | t => (scanDigits t).map fun r => ((r.1:ℤ), r.2)

section Programs
-- what ends up in an `int` for a number that does not fit is left to the library
variable (convert : ℤ → BitVec 32)

/-- The three conversions of one pass of the `while` loop. -/
def scanVertex (file : List Byte) : Option (Vertex × List Byte) :=
  (scanInt file).bind fun x => (scanInt x.2).bind fun y => (scanInt y.2).map fun z =>
    (⟨convert x.1, convert y.1, convert z.1⟩, z.2)

/-- The `while` loop, with the elements that are left of the array. -/
def readLoop : ℕ → List Byte → List Vertex
  | 0, _ => []
  | left+1, file =>
    match scanVertex convert file with
    | some (v, rest) => v :: readLoop left rest
    | none => []

/-- `printf("%d %d %d\n", ..)`. -/
def line (v : Vertex) : List Byte :=
  decimalInt v.x.toInt ++ ascii " " ++ decimalInt v.y.toInt ++ ascii " " ++ decimalInt v.z.toInt ++
    ascii "\n"

def printed (ws : List Vertex) : List Byte :=
  ascii "\nSorting " ++ decimal ws.length ++
    ascii " vectors based on distance from the origin.\n\n" ++ ws.flatMap line

/-- The lists that `qsort` may leave in the array of `qsort_large`. -/
def OriginalOutput (vs ws : List Vertex) : Prop :=
  ws.Perm vs ∧ ws.Pairwise fun u v => compare (originalVertex u) (originalVertex v) ≤ 0

/-- What `qsort_large_optimal` may print for a file. -/
def OptimalPrints (file out : List Byte) : Prop :=
  ∃ ws, OptimalOutput (readLoop convert MAXARRAY file) ws ∧ out = printed ws

/-- What `qsort_large` may print for a file. -/
def OriginalPrints (file out : List Byte) : Prop :=
  ∃ ws, OriginalOutput (readLoop convert MAXARRAY file) ws ∧ out = printed ws

end Programs

section Scan

theorem scanDigits_decimal (n : ℕ) (rest : List Byte) (hr : ∀ b ∈ rest.head?, isDigit b = false) :
    scanDigits (decimal n ++ rest) = some (n, rest) := by
  have hdigits := isDigit_of_mem_decimal n
  have hrest : rest.takeWhile isDigit = [] ∧ rest.dropWhile isDigit = rest := by
    cases rest with
    | nil => exact ⟨rfl, rfl⟩
    | cons b rest =>
      have hb := hr b rfl
      exact ⟨List.takeWhile_cons_of_neg (by simp [hb]), List.dropWhile_cons_of_neg (by simp [hb])⟩
  have htake : (decimal n ++ rest).takeWhile isDigit = decimal n := by
    rw [List.takeWhile_append_of_pos hdigits, hrest.1, List.append_nil]
  rw [scanDigits, htake, if_neg (decimal_ne_nil n), digitRun_append _ _ _ hdigits,
    digitRun_decimal, digitRun_stop _ _ hr, List.dropWhile_append_of_pos hdigits, hrest.2]

theorem scanInt_space (space s : List Byte) (hs : ∀ b ∈ space, isSpace b = true) :
    scanInt (space ++ s) = scanInt s := by
  unfold scanInt
  rw [List.dropWhile_append_of_pos hs]

/-- A text that begins with a digit has no white space and no sign in front. -/
theorem scanInt_digit (b : Byte) (s : List Byte) (hb : isDigit b = true) :
    scanInt (b :: s) = (scanDigits (b :: s)).map fun r => ((r.1:ℤ), r.2) := by
  unfold scanInt
  rw [List.dropWhile_cons_of_neg (by simp [not_isSpace_of_isDigit b hb])]
  split
  · rename_i heq
    rw [(List.cons.inj heq).1] at hb
    cases hb
  · rename_i heq
    rw [(List.cons.inj heq).1] at hb
    cases hb
  · rfl

/-- A printed integer is read back in front of anything but a digit. -/
theorem scanInt_decimalInt (n : ℤ) (rest : List Byte) (hr : ∀ b ∈ rest.head?, isDigit b = false) :
    scanInt (decimalInt n ++ rest) = some (n, rest) := by
  unfold decimalInt
  split_ifs with hn
  · have hsign : scanInt (45 :: (decimal n.natAbs ++ rest)) =
        (scanDigits (decimal n.natAbs ++ rest)).map fun r => (-(r.1:ℤ), r.2) := rfl
    rw [List.cons_append, hsign, scanDigits_decimal _ _ hr, Option.map_some]
    congr 2
    omega
  · obtain ⟨b, s, hdigits⟩ := List.exists_cons_of_ne_nil (decimal_ne_nil n.toNat)
    have hb := isDigit_of_mem_decimal n.toNat b (by rw [hdigits]; exact List.mem_cons_self ..)
    have hscan := scanDigits_decimal n.toNat rest hr
    rw [hdigits, List.cons_append] at hscan ⊢
    rw [scanInt_digit b _ hb, hscan, Option.map_some]
    congr 2
    omega

theorem head_not_digit (c : Byte) (t : List Byte) (hc : isDigit c = false) :
    ∀ b ∈ (c :: t).head?, isDigit b = false := by
  intro b hb
  rw [← Option.some.inj hb]
  exact hc

variable (convert : ℤ → BitVec 32)

/-- The library stores a number that fits an `int` as it is. -/
def Converts : Prop := ∀ n : ℤ, -(2^31) ≤ n → n < 2^31 → convert n = BitVec.ofInt 32 n

theorem converts_toInt (hc : Converts convert) (x : BitVec 32) : convert x.toInt = x := by
  have hlow := BitVec.le_toInt x
  have hhigh := BitVec.toInt_lt (x := x)
  rw [hc x.toInt (by simpa using hlow) (by simpa using hhigh), BitVec.ofInt_toInt]

/-- A printed line is read back as its vector, up to the newline. -/
theorem scanVertex_line (hc : Converts convert) (v : Vertex) (rest : List Byte) :
    scanVertex convert (line v ++ rest) = some (v, 10 :: rest) := by
  have hspace : ∀ b ∈ [(32 : Byte)], isSpace b = true := by
    intro b hb
    rw [List.mem_singleton.mp hb]
    decide
  have hx := scanInt_decimalInt v.x.toInt
    ([32] ++ (decimalInt v.y.toInt ++ ([32] ++ (decimalInt v.z.toInt ++ 10 :: rest))))
    (head_not_digit 32 _ (by decide))
  have hy := scanInt_decimalInt v.y.toInt ([32] ++ (decimalInt v.z.toInt ++ 10 :: rest))
    (head_not_digit 32 _ (by decide))
  have hz := scanInt_decimalInt v.z.toInt (10 :: rest) (head_not_digit 10 _ (by decide))
  have hline : line v ++ rest = decimalInt v.x.toInt ++
      ([32] ++ (decimalInt v.y.toInt ++ ([32] ++ (decimalInt v.z.toInt ++ 10 :: rest)))) := by
    have h1 : ascii " " = [32] := rfl
    have h2 : ascii "\n" = [10] := rfl
    simp only [line, h1, h2, List.append_assoc, List.cons_append, List.nil_append]
  rw [scanVertex, hline, hx, Option.bind_some, scanInt_space _ _ hspace, hy, Option.bind_some,
    scanInt_space _ _ hspace, hz, Option.map_some]
  simp only [converts_toInt convert hc]

theorem readLoop_newline (left : ℕ) (file : List Byte) :
    readLoop convert left (10 :: file) = readLoop convert left file := by
  have hspace : ∀ b ∈ [(10 : Byte)], isSpace b = true := by
    intro b hb
    rw [List.mem_singleton.mp hb]
    decide
  cases left with
  | zero => rfl
  | succ left =>
    have hscan : scanVertex convert (10 :: file) = scanVertex convert file := by
      unfold scanVertex
      rw [← List.singleton_append, scanInt_space _ _ hspace]
    rw [readLoop, readLoop, hscan]

/-- The printed lines are read back as the vectors they were printed for, as far as the array
goes. -/
theorem readLoop_lines (hc : Converts convert) (left : ℕ) (ws : List Vertex) :
    readLoop convert left (ws.flatMap line) = ws.take left := by
  induction left generalizing ws with
  | zero => rfl
  | succ left ih =>
    cases ws with
    | nil => rfl
    | cons v ws =>
      rw [List.flatMap_cons, readLoop, scanVertex_line convert hc]
      show v :: readLoop convert left (10 :: ws.flatMap line) = _
      rw [readLoop_newline, ih, List.take_succ_cons]

end Scan

section Outputs

/-- Different lists are printed differently. -/
theorem flatMap_line_injective (ws us : List Vertex) (h : ws.flatMap line = us.flatMap line) :
    ws = us := by
  have hc : Converts (BitVec.ofInt 32) := fun n _ _ => rfl
  have hws := readLoop_lines _ hc (ws.length + us.length) ws
  have hus := readLoop_lines _ hc (ws.length + us.length) us
  rw [List.take_of_length_le (by omega)] at hws hus
  calc ws = readLoop (BitVec.ofInt 32) (ws.length + us.length) (ws.flatMap line) := hws.symm
    _ = readLoop (BitVec.ofInt 32) (ws.length + us.length) (us.flatMap line) := by rw [h]
    _ = us := hus

theorem printed_injective (ws us : List Vertex) (hlen : ws.length = us.length)
    (h : printed ws = printed us) : ws = us := by
  unfold printed at h
  rw [hlen] at h
  exact flatMap_line_injective ws us (List.append_cancel_left h)

theorem original_iff (vs ws : List Vertex) :
    OriginalOutput vs ws ↔ SortedBy exactSquare vs ws := by
  unfold OriginalOutput SortedBy
  simp only [compare_original]

theorem optimal_iff (vs ws : List Vertex) :
    OptimalOutput vs ws ↔ SortedBy (fun v => (optimalVertex v).distance) vs ws := Iff.rfl

/-- What one sort may leave the other may leave exactly when the other's strict pairs are the
first one's. -/
theorem sortedBy_imp_iff {κ ι : Type*} [LinearOrder κ] [LinearOrder ι] (f : Vertex → κ)
    (g : Vertex → ι) (vs : List Vertex) :
    (∀ ws, SortedBy f vs ws → SortedBy g vs ws) ↔ ∀ u ∈ vs, ∀ v ∈ vs, g u < g v → f u < f v := by
  rw [← sortedBy_iff f g vs]
  apply forall_congr'
  intro ws
  apply imp_congr_right
  intro hws
  have hsign : (ws.Pairwise fun u v => sign (g u) (g v) ≤ 0) ↔ ws.Pairwise fun u v => g u ≤ g v := by
    simp only [SortKeys.sign_nonpos_iff]
  exact ⟨fun h => hsign.mp h.2, fun h => ⟨hws.1, hsign.mpr h⟩⟩

/-- Printed texts are in one program's range exactly as the lists are. -/
theorem prints_imp_iff {κ ι : Type*} [LinearOrder κ] [LinearOrder ι] (f : Vertex → κ)
    (g : Vertex → ι) (vs : List Vertex) :
    (∀ out, (∃ ws, SortedBy f vs ws ∧ out = printed ws) →
        ∃ ws, SortedBy g vs ws ∧ out = printed ws) ↔
      ∀ ws, SortedBy f vs ws → SortedBy g vs ws := by
  constructor
  · intro h ws hws
    obtain ⟨us, hus, heq⟩ := h (printed ws) ⟨ws, hws, rfl⟩
    have hlen : ws.length = us.length := hws.1.length_eq.trans hus.1.length_eq.symm
    rw [printed_injective ws us hlen heq]
    exact hus
  · intro h out ⟨ws, hws, hout⟩
    exact ⟨ws, h ws hws, hout⟩

theorem optimal_to_original_iff (vs : List Vertex) :
    (∀ ws, OptimalOutput vs ws → OriginalOutput vs ws) ↔ WrapsApart vs := by
  simp only [original_iff, optimal_iff]
  rw [sortedBy_imp_iff]
  simp only [key_lt_iff]
  rfl

/-- Keys that keep nearer vectors nearer separate nothing else. -/
theorem original_to_optimal (vs : List Vertex) (h : WrapsApart vs) (ws : List Vertex)
    (hws : OriginalOutput vs ws) : OptimalOutput vs ws := by
  rw [original_iff] at hws
  rw [optimal_iff]
  refine (sortedBy_imp_iff _ _ vs).mpr ?_ ws hws
  intro u hu v hv hkey
  by_contra hnot
  rcases lt_or_eq_of_le (not_lt.mp hnot) with hlt | heq
  · exact lt_asymm hkey ((key_lt_iff v u).mpr (h v hv u hu hlt))
  · -- equal squares wrap equally often
    rw [optimal_distance, optimal_distance, wraps, wraps, heq] at hkey
    exact lt_irrefl _ hkey

end Outputs

/-- For every file, and however the library converts numbers that do not fit an `int`: the two
programs may print the same texts exactly when nearer vectors of the file stay nearer in the
wrapped key, and otherwise the optimised one may print a text that the original never prints. -/
theorem prints_agree_iff (convert : ℤ → BitVec 32) (file : List Byte) :
    ((∀ out, OptimalPrints convert file out ↔ OriginalPrints convert file out) ↔
        WrapsApart (readLoop convert MAXARRAY file)) ∧
      ((∀ out, OptimalPrints convert file out → OriginalPrints convert file out) ↔
        WrapsApart (readLoop convert MAXARRAY file)) := by
  have hone : (∀ out, OptimalPrints convert file out → OriginalPrints convert file out) ↔
      WrapsApart (readLoop convert MAXARRAY file) := by
    rw [← optimal_to_original_iff]
    unfold OptimalPrints OriginalPrints
    simp only [original_iff, optimal_iff]
    exact prints_imp_iff _ _ _
  refine ⟨⟨fun h => hone.mp fun out => (h out).mp, fun h out => ⟨hone.mpr h out, ?_⟩⟩, hone⟩
  intro ⟨ws, hws, hout⟩
  exact ⟨ws, original_to_optimal _ h ws hws, hout⟩

section Again
variable (convert : ℤ → BitVec 32)

/-- The check of the count ends the loop in front of the end of the array. -/
theorem readLoop_length (left : ℕ) (file : List Byte) :
    (readLoop convert left file).length ≤ left := by
  induction left generalizing file with
  | zero => exact Nat.zero_le _
  | succ left ih =>
    rw [readLoop]
    split
    · exact Nat.succ_le_succ (ih _)
    · exact Nat.zero_le _

theorem sortedBy_perm {κ : Type*} [LinearOrder κ] (f : Vertex → κ) (vs us ws : List Vertex)
    (h : us.Perm vs) : SortedBy f us ws ↔ SortedBy f vs ws :=
  and_congr_left fun _ => ⟨fun hw => hw.trans h, fun hw => hw.trans h.symm⟩

/-- The printed lines of any order of a file's vectors are read back as that order, and each of
the programs may print for them exactly what it may print for the file. -/
theorem lines_read_back (hc : Converts convert) (file : List Byte) (ws : List Vertex)
    (hperm : ws.Perm (readLoop convert MAXARRAY file)) :
    readLoop convert MAXARRAY (ws.flatMap line) = ws ∧
      (∀ out, OptimalPrints convert (ws.flatMap line) out ↔ OptimalPrints convert file out) ∧
      ∀ out, OriginalPrints convert (ws.flatMap line) out ↔ OriginalPrints convert file out := by
  have hread : readLoop convert MAXARRAY (ws.flatMap line) = ws := by
    rw [readLoop_lines convert hc, List.take_of_length_le]
    rw [hperm.length_eq]
    exact readLoop_length convert MAXARRAY file
  refine ⟨hread, fun out => ?_, fun out => ?_⟩
  · simp only [OptimalPrints, hread, optimal_iff, sortedBy_perm _ _ ws _ hperm]
  · simp only [OriginalPrints, hread, original_iff, sortedBy_perm _ _ ws _ hperm]

end Again

/-- A far vector in front of a near one, and the other way round. -/
theorem lines_read_back_run : readLoop (BitVec.ofInt 32) MAXARRAY (ascii "1 0 0\n-30 4 0\n") =
    [⟨1, 0, 0⟩, ⟨-30, 4, 0⟩] := by
  have hc : Converts (BitVec.ofInt 32) := fun n _ _ => rfl
  have hfile : readLoop (BitVec.ofInt 32) MAXARRAY (ascii "-30 +4 0  1 0 0") =
      [⟨-30, 4, 0⟩, ⟨1, 0, 0⟩] := by decide +kernel
  have hperm : [⟨1, 0, 0⟩, ⟨-30, 4, 0⟩].Perm
      (readLoop (BitVec.ofInt 32) MAXARRAY (ascii "-30 +4 0  1 0 0")) := by
    rw [hfile]
    exact List.Perm.swap _ _ _
  exact (lines_read_back (BitVec.ofInt 32) hc _ _ hperm).1

end DevKota.Hw3.Vectors
