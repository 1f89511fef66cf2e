import DevKota.CString
import DevKota.SortKeys

/-! The sort of the words of a file, with the array of fixed slots that they are read into. -/
namespace DevKota.Hw3.Words
open CString SortKeys

def MAXARRAY : ℕ := 60000

/-- `sizeof(struct myStringStruct)`. -/
def slotSize : ℕ := 128

/-- What successive `fscanf` calls with `"%s"` return, with the bytes of the word read so far. -/
def wordsFrom : List Byte → List Byte → List (List Byte)
  | cur, c :: s =>
    if isSpace c then
      if cur = [] then wordsFrom [] s else cur :: wordsFrom [] s
    else wordsFrom (cur ++ [c]) s
  | cur, [] => if cur = [] then [] else [cur]

def words (file : List Byte) : List (List Byte) := wordsFrom [] file

section Array
variable {n : ℕ}

/-- `fscanf` stores the bytes of a word and a NUL, or runs out of the array. -/
def storeWord (array : Buffer n) (off : ℕ) (word : List Byte) : Option (Buffer n) :=
  if off + word.length < n then some (array.overwrite off (word ++ [0])) else none

/-- `array[i].qstring`. -/
def slot (array : Buffer n) (i : ℕ) : List Byte := (array.bytes.drop (slotSize*i)).take slotSize

end Array

/-- The `while` loop: a word is stored first, and then the count is checked. -/
def readLoop {n : ℕ} (max : ℕ) : Buffer n → ℕ → List (List Byte) → Option (Buffer n × ℕ)
  | array, count, [] => some (array, count)
  | array, count, word :: rest =>
    (storeWord array (slotSize*count) word).bind fun array =>
      if count < max then readLoop max array (count+1) rest else some (array, count)

/-- `strcmp` on two arrays: the bytes count as unsigned, up to a difference or the NUL. -/
def strcmp : List Byte → List Byte → ℤ
  | a :: s, b :: t => if a ≠ b then (a.toNat:ℤ) - b.toNat else if a = 0 then 0 else strcmp s t
  | _, _ => 0

def compare (elem1 elem2 : List Byte) : ℤ :=
  let result := strcmp elem1 elem2
  if result < 0 then 1 else if result = 0 then 0 else -1

def elements {n : ℕ} (array : Buffer n) (count : ℕ) : List (List Byte) :=
  (List.range count).map (slot array)

/-- The header and `printf("%s\n", ..)` of every element. -/
def printed (sorted : List (List Byte)) : List Byte :=
  ascii "\nSorting " ++ decimal sorted.length ++ ascii " elements.\n\n" ++
    sorted.flatMap fun elem => cstr elem ++ ascii "\n"

inductive Outcome
  | usage
  | fault
  | printed (out : List Byte)

/-- The runs of `main`: the array as the stack held it, the argument with what `fopen` finds
there, and the outcome. -/
inductive Main (array : Buffer (slotSize*MAXARRAY)) : Option (Option (List Byte)) → Outcome → Prop
  | usage : Main array none .usage
  | unopened : Main array (some none) .fault
  | outside (file : List Byte) (h : readLoop MAXARRAY array 0 (words file) = none) :
      Main array (some (some file)) .fault
  -- `compare` leaves an element without a NUL, and what it finds there is not modelled
  | unterminated (file : List Byte) (filled : Buffer (slotSize*MAXARRAY)) (count : ℕ) (o : Outcome)
      (h : readLoop MAXARRAY array 0 (words file) = some (filled, count))
      (hopen : ∃ elem ∈ elements filled count, 0 ∉ elem) : Main array (some (some file)) o
  -- `qsort` may leave elements that compare as equal in any order
  | sorted (file : List Byte) (filled : Buffer (slotSize*MAXARRAY)) (count : ℕ)
      (sorted : List (List Byte))
      (h : readLoop MAXARRAY array 0 (words file) = some (filled, count))
      (hperm : sorted.Perm (elements filled count))
      (hsorted : sorted.Pairwise fun a b => compare a b ≤ 0) :
      Main array (some (some file)) (.printed (Words.printed sorted))

section Bounds
variable {n : ℕ}

/-- Every word ends in front of the end of the array. -/
def FitsFrom (size count : ℕ) (ws : List (List Byte)) : Prop :=
  ∀ (i : ℕ) (word : List Byte), ws[i]? = some word → slotSize*(count+i) + word.length < size

theorem fitsFrom_cons (size count : ℕ) (word : List Byte) (rest : List (List Byte)) :
    FitsFrom size count (word :: rest) ↔
      slotSize*count + word.length < size ∧ FitsFrom size (count+1) rest := by
  constructor
  · intro h
    refine ⟨h 0 word rfl, fun i w hw => ?_⟩
    rw [Nat.add_right_comm]
    exact h (i+1) w hw
  · intro h i w hw
    cases i with
    | zero =>
      rw [← Option.some.inj hw]
      exact h.1
    | succ i =>
      rw [← Nat.add_assoc, Nat.add_right_comm]
      exact h.2 i w hw

/-- The loop stays in the array exactly when every word does, and then it takes them all: where
its own check would end it, the word before the check was stored outside. -/
theorem readLoop_fits (max : ℕ) (array : Buffer (slotSize*max)) (count : ℕ) (ws : List (List Byte)) :
    ((readLoop max array count ws).isSome = true ↔ FitsFrom (slotSize*max) count ws) ∧
      ∀ r, readLoop max array count ws = some r → r.2 = count + ws.length := by
  induction ws generalizing array count with
  | nil =>
    refine ⟨⟨fun _ i w hw => ?_, fun _ => rfl⟩, fun r hr => ?_⟩
    · cases hw
    · rw [← Option.some.inj hr]
      rfl
  | cons word rest ih =>
    rw [fitsFrom_cons, readLoop, storeWord]
    by_cases hfit : slotSize*count + word.length < slotSize*max
    -- a word that fits begins inside the array, so the loop goes on
    · have hcount : count < max := by
        by_contra hge
        have := Nat.mul_le_mul_left slotSize (not_lt.mp hge)
        omega
      obtain ⟨hsome, hnumber⟩ := ih (array.overwrite (slotSize*count) (word ++ [0])) (count+1)
      rw [if_pos hfit, Option.bind_some, if_pos hcount]
      refine ⟨hsome.trans (and_iff_right hfit).symm, fun r hr => ?_⟩
      rw [hnumber r hr, List.length_cons]
      omega
    · rw [if_neg hfit]
      refine ⟨⟨fun h => ?_, fun h => absurd h.1 hfit⟩, fun r hr => ?_⟩
      · cases h
      · cases hr

end Bounds

section Slots
variable {n : ℕ} (array : Buffer n)

theorem overwrite_get (off : ℕ) (xs : List Byte) (h : off + xs.length ≤ n) (i : ℕ) :
    (array.overwrite off xs).bytes[i]? =
      if off ≤ i ∧ i < off + xs.length then xs[i-off]? else array.bytes[i]? := by
  have hlen := array.length_eq
  have hhead : (array.bytes.take off).length = off := by
    rw [List.length_take]
    omega
  rw [Buffer.overwrite_bytes _ _ _ h, List.append_assoc]
  -- in front of the stored bytes, inside them, behind them
  rcases Nat.lt_or_ge i off with hi | hi
  · rw [List.getElem?_append_left (by omega), List.getElem?_take, if_pos hi, if_neg (by omega)]
  · rw [List.getElem?_append_right (by omega), hhead]
    by_cases hin : i < off + xs.length
    · rw [List.getElem?_append_left (by omega), if_pos ⟨hi, hin⟩]
    · rw [List.getElem?_append_right (by omega), List.getElem?_drop, if_neg (by omega)]
      congr 1
      omega

theorem slot_get (j i : ℕ) :
    (slot array j)[i]? = if i < slotSize then array.bytes[slotSize*j+i]? else none := by
  rw [slot, List.getElem?_take, List.getElem?_drop]

/-- What is stored at the start of a slot, and no further than its end. -/
theorem slot_own (c : ℕ) (xs : List Byte) (hxs : xs.length ≤ slotSize)
    (hslot : slotSize*c + slotSize ≤ n) :
    slot (array.overwrite (slotSize*c) xs) c = xs ++ (slot array c).drop xs.length := by
  apply List.ext_getElem?
  intro i
  rw [slot_get, overwrite_get _ _ _ (by omega)]
  by_cases hi : i < xs.length
  · rw [if_pos (by omega), if_pos (by omega), List.getElem?_append_left hi,
      Nat.add_sub_cancel_left]
  · have hout : ¬ (slotSize*c ≤ slotSize*c+i ∧ slotSize*c+i < slotSize*c + xs.length) := by omega
    rw [List.getElem?_append_right (by omega), List.getElem?_drop,
      Nat.add_sub_cancel' (by omega), slot_get, if_neg hout]

theorem slot_other (c j : ℕ) (xs : List Byte) (hxs : xs.length ≤ slotSize)
    (hslot : slotSize*c + slotSize ≤ n) (hj : j ≠ c) :
    slot (array.overwrite (slotSize*c) xs) j = slot array j := by
  apply List.ext_getElem?
  intro i
  rw [slot_get, slot_get, overwrite_get _ _ _ (by omega)]
  by_cases hi : i < slotSize
  · have hout : ¬ (slotSize*c ≤ slotSize*j+i ∧ slotSize*j+i < slotSize*c + xs.length) := by
      simp only [slotSize] at *
      omega
    rw [if_neg hout]
  · rw [if_neg hi, if_neg hi]

/-- Words that are shorter than a slot each get their own one, as long as there are slots. -/
theorem readLoop_slots (max count : ℕ) (array : Buffer (slotSize*max)) (ws : List (List Byte))
    (hlen : ∀ w ∈ ws, w.length < slotSize) (hmax : count + ws.length ≤ max) :
    ∃ filled, readLoop max array count ws = some (filled, count + ws.length) ∧
      (∀ j < count, slot filled j = slot array j) ∧
      ∀ (i : ℕ) (w : List Byte), ws[i]? = some w → ∃ rest, slot filled (count+i) = w ++ 0 :: rest := by
  induction ws generalizing array count with
  | nil => exact ⟨array, rfl, fun _ _ => rfl, fun i w hw => by cases hw⟩
  | cons word rest ih =>
    have hword := hlen word (List.mem_cons_self ..)
    have hstored : (word ++ [0]).length ≤ slotSize := by
      rw [List.length_append]
      exact hword
    have hcount : count + 1 + rest.length ≤ max := by
      rw [List.length_cons] at hmax
      omega
    have hslot : slotSize*count + slotSize ≤ slotSize*max := by
      calc slotSize*count + slotSize = slotSize*(count+1) := rfl
        _ ≤ slotSize*max := Nat.mul_le_mul_left _ (by omega)
    obtain ⟨filled, hread, hold, hnew⟩ :=
      ih (count+1) (array.overwrite (slotSize*count) (word ++ [0]))
        (fun w hw => hlen w (List.mem_cons_of_mem _ hw)) hcount
    refine ⟨filled, ?_, fun j hj => ?_, fun i w hw => ?_⟩
    · rw [readLoop, storeWord, if_pos (by omega), Option.bind_some, if_pos (by omega), hread,
        List.length_cons, Nat.add_right_comm, Nat.add_assoc]
    · rw [hold j (by omega), slot_other array count j _ hstored hslot (by omega)]
    · cases i with
      | zero =>
        -- the later words leave this slot alone
        rw [← Option.some.inj hw, Nat.add_zero, hold count (by omega),
          slot_own array count _ hstored hslot, ← List.append_cons]
        exact ⟨_, rfl⟩
      | succ i =>
        rw [← Nat.add_assoc, Nat.add_right_comm]
        exact hnew i w hw

end Slots

section Order

/-- The string of an element as numbers, in whose order `strcmp` compares. -/
def key (elem : List Byte) : List ℕ := (cstr elem).map UInt8.toNat

theorem strcmp_spec (s t : List Byte) (hs : 0 ∈ s) (ht : 0 ∈ t) :
    (strcmp s t < 0 ↔ key s < key t) ∧ (strcmp s t = 0 ↔ key s = key t) := by
  induction s generalizing t with
  | nil => cases hs
  | cons a s ih =>
    cases t with
    | nil => cases ht
    | cons b t =>
      have hzero (c : Byte) : c = 0 ↔ c.toNat = 0 := UInt8.toNat_inj.symm
      simp only [strcmp, key, cstr_cons]
      by_cases hab : a = b
      · subst hab
        by_cases ha : a = 0
        · simp [ha]
        · obtain ⟨hlt, heq⟩ := ih t ((List.mem_cons.mp hs).resolve_left (Ne.symm ha))
            ((List.mem_cons.mp ht).resolve_left (Ne.symm ha))
          simpa [ha, key] using And.intro hlt heq
      · -- the first difference decides, also against a string that ends here
        have hne : a.toNat ≠ b.toNat := fun h => hab (UInt8.toNat_inj.mp h)
        rw [if_pos hab]
        by_cases ha : a = 0
        · have hb : b ≠ 0 := fun hb => hab (ha.trans hb.symm)
          simp only [ha, hb, if_true, if_false, List.map_nil, List.map_cons]
          have := mt (hzero b).mpr hb
          constructor
          · simp; omega
          · simp; omega
        · by_cases hb : b = 0
          · simp only [ha, hb, if_true, if_false, List.map_nil, List.map_cons]
            have := mt (hzero a).mpr ha
            constructor
            · simp
            · simp; omega
          · simp only [ha, hb, if_false, List.map_cons, List.cons_lt_cons_iff, List.cons.injEq]
            constructor
            · omega
            · omega

/-- `compare` puts the later string first. -/
theorem compare_spec (s t : List Byte) (hs : 0 ∈ s) (ht : 0 ∈ t) :
    compare s t = sign (OrderDual.toDual (key s)) (OrderDual.toDual (key t)) := by
  obtain ⟨hlt, heq⟩ := strcmp_spec s t hs ht
  unfold compare sign
  simp only [hlt, heq, OrderDual.toDual_lt_toDual, OrderDual.toDual_inj]

/-- What `qsort` may leave of terminated elements. -/
theorem sortedBy_key (elems ws : List (List Byte)) (hterm : ∀ e ∈ elems, 0 ∈ e) :
    SortedBy (fun e => OrderDual.toDual (key e)) elems ws ↔
      ws.Perm elems ∧ ws.Pairwise fun a b => compare a b ≤ 0 := by
  apply and_congr_right
  intro hperm
  apply List.Pairwise.iff_of_mem
  intro a b ha hb
  rw [compare_spec a b (hterm a (hperm.mem_iff.mp ha)) (hterm b (hperm.mem_iff.mp hb))]

end Order

/-- The words in descending byte order, as far as a C string reaches. -/
def descending (ws : List (List Byte)) : List (List Byte) :=
  (ws.map cstr).insertionSort fun a b => b.map UInt8.toNat ≤ a.map UInt8.toNat

/-- The header and one line for every word. -/
def report (ws : List (List Byte)) : List Byte :=
  ascii "\nSorting " ++ decimal ws.length ++ ascii " elements.\n\n" ++
    (descending ws).flatMap fun w => w ++ ascii "\n"

section Report

theorem sortedBy_descending (ws : List (List Byte)) :
    SortedBy (fun w => OrderDual.toDual (w.map UInt8.toNat)) (ws.map cstr) (descending ws) :=
  sortedBy_insertionSort (fun w => OrderDual.toDual (w.map UInt8.toNat)) (ws.map cstr)

/-- However `qsort` orders equal elements, their strings come out in one order. -/
theorem sorted_strings (ws elems sorted : List (List Byte)) (hterm : ∀ e ∈ elems, 0 ∈ e)
    (hstr : elems.map cstr = ws.map cstr) (hperm : sorted.Perm elems)
    (hsorted : sorted.Pairwise fun a b => compare a b ≤ 0) : sorted.map cstr = descending ws := by
  have hby := (sortedBy_key elems sorted hterm).mpr ⟨hperm, hsorted⟩
  have hstrings : SortedBy (fun w => OrderDual.toDual (w.map UInt8.toNat)) (ws.map cstr)
      (sorted.map cstr) := by
    refine ⟨?_, ?_⟩
    · rw [← hstr]
      exact hperm.map cstr
    · rw [List.pairwise_map]
      exact hby.2
  have hkeys := sortedBy_keys_eq _ _ _ _ hstrings (sortedBy_descending ws)
  apply List.map_injective_iff.mpr _ hkeys
  intro u v huv
  exact List.map_injective_iff.mpr (fun a b => UInt8.toNat_inj.mp) (OrderDual.toDual_inj.mp huv)

theorem printed_eq (ws sorted : List (List Byte)) (h : sorted.map cstr = descending ws) :
    printed sorted = report ws := by
  have hlen : sorted.length = ws.length := by
    calc sorted.length = (sorted.map cstr).length := (List.length_map _).symm
      _ = (descending ws).length := by rw [h]
      _ = ws.length := by rw [descending, List.length_insertionSort, List.length_map]
  rw [printed, report, ← h, List.flatMap_map, hlen]

theorem cstr_word (w rest : List Byte) : cstr (w ++ 0 :: rest) = cstr w := by
  by_cases hw : 0 ∈ w
  · exact cstr_append_of_mem w _ hw
  · rw [cstr_append_zero w rest hw, cstr_of_not_mem w hw]

/-- The slots after the loop hold the words, each with its NUL. -/
theorem elements_strings (ws : List (List Byte)) (max : ℕ) (array : Buffer (slotSize*max))
    (hlen : ∀ w ∈ ws, w.length < slotSize) (hmax : ws.length ≤ max) :
    ∃ filled, readLoop max array 0 ws = some (filled, ws.length) ∧
      (∀ e ∈ elements filled ws.length, 0 ∈ e) ∧
      (elements filled ws.length).map cstr = ws.map cstr := by
  obtain ⟨filled, hread, -, hslots⟩ := readLoop_slots max 0 array ws hlen (by omega)
  rw [Nat.zero_add] at hread
  simp only [Nat.zero_add] at hslots
  refine ⟨filled, hread, fun e he => ?_, ?_⟩
  · obtain ⟨i, hi, rfl⟩ := List.mem_map.mp he
    obtain ⟨rest, hrest⟩ := hslots i _ (List.getElem?_eq_getElem (List.mem_range.mp hi))
    rw [hrest]
    simp
  -- the strings agree slot by slot
  · apply List.ext_getElem?
    intro i
    simp only [elements, List.map_map, List.getElem?_map]
    by_cases hi : i < ws.length
    · obtain ⟨rest, hrest⟩ := hslots i _ (List.getElem?_eq_getElem hi)
      rw [List.getElem?_range hi, List.getElem?_eq_getElem hi]
      simp only [Option.map_some, Function.comp_apply, hrest, cstr_word]
    · rw [List.getElem?_eq_none (by simpa using hi), List.getElem?_eq_none (by simpa using hi)]
      rfl

end Report

/-- A file's words are read without a store outside the array exactly when each of them ends in
front of the array's end, so there are at most `MAXARRAY`; and then every word is taken. -/
theorem reads_in_bounds_iff (array : Buffer (slotSize*MAXARRAY)) (file : List Byte) :
    ((readLoop MAXARRAY array 0 (words file)).isSome = true ↔
        ∀ (i : ℕ) (word : List Byte), (words file)[i]? = some word →
          slotSize*i + word.length < slotSize*MAXARRAY) ∧
      ∀ r, readLoop MAXARRAY array 0 (words file) = some r →
        r.2 = (words file).length ∧ r.2 ≤ MAXARRAY := by
  obtain ⟨hsome, hcount⟩ := readLoop_fits MAXARRAY array 0 (words file)
  unfold FitsFrom at hsome
  simp only [Nat.zero_add] at hsome hcount
  refine ⟨hsome, fun r hr => ⟨hcount r hr, ?_⟩⟩
  rw [hcount r hr]
  by_contra hmany
  -- the word behind the last slot would begin at the end of the array
  have hfits := hsome.mp (by rw [hr, Option.isSome_some])
  have hlast := hfits MAXARRAY _ (List.getElem?_eq_getElem (by omega))
  omega

/-- With at most `MAXARRAY` words, each shorter than a slot, `main` always prints the header and
the words in descending byte order, whatever the stack holds and however `qsort` orders words that
are equal. -/
theorem report_iff (array : Buffer (slotSize*MAXARRAY)) (file : List Byte)
    (hlen : ∀ w ∈ words file, w.length < slotSize) (hmax : (words file).length ≤ MAXARRAY)
    (o : Outcome) : Main array (some (some file)) o ↔ o = .printed (report (words file)) := by
  obtain ⟨filled, hread, hterm, hstr⟩ := elements_strings (words file) MAXARRAY array hlen hmax
  constructor
  · intro h
    cases h with
    -- words that fit are never stored outside, and every element ends
    | outside _ hout =>
      rw [hread] at hout
      cases hout
    | unterminated _ filled' count _ hread' hopen =>
      rw [hread] at hread'
      cases hread'
      obtain ⟨elem, helem, hzero⟩ := hopen
      exact absurd (hterm elem helem) hzero
    | sorted _ filled' count sorted hread' hperm hsorted =>
      rw [hread] at hread'
      cases hread'
      rw [printed_eq _ _ (sorted_strings _ _ sorted hterm hstr hperm hsorted)]
  · intro h
    -- some order comes out, and every order prints the same
    have hsort := sortedBy_insertionSort (fun e => OrderDual.toDual (key e))
      (elements filled (words file).length)
    obtain ⟨hperm, hsorted⟩ := (sortedBy_key _ _ hterm).mp hsort
    rw [h, ← printed_eq _ _ (sorted_strings _ _ _ hterm hstr hperm hsorted)]
    exact Main.sorted file filled _ _ hread hperm hsorted

/-- Three words on two lines, one of them twice. -/
theorem report_iff_run : Main (Buffer.zero _) (some (some (ascii "kiwi  plum\nplum\n")))
    (.printed (ascii "\nSorting 3 elements.\n\nplum\nplum\nkiwi\n")) := by
  apply (report_iff _ _ (by decide) (by decide) _).mpr
  exact congrArg Outcome.printed (by decide)

end DevKota.Hw3.Words
