import Mathlib.Data.List.Sort
import Mathlib.Tactic

/-! Sorting by one key where another order is meant. -/
namespace SortKeys

variable {α ι κ : Type*} [LinearOrder ι] [LinearOrder κ]

/-- The three-way comparison that `qsort` is given. -/
def sign (a b : ι) : ℤ := if b < a then 1 else if a = b then 0 else -1

theorem sign_nonpos_iff (a b : ι) : sign a b ≤ 0 ↔ a ≤ b := by
  unfold sign
  rcases lt_trichotomy a b with h | h | h
  · rw [if_neg (not_lt_of_gt h), if_neg (ne_of_lt h)]
    simp [h.le]
  · simp [h]
  · rw [if_pos h]
    simp [h]

/-- Comparisons agree when one order's strict and equal pairs are the other's. -/
theorem sign_congr (a b : ι) (c d : κ) (hlt : a < b → c < d) (heq : a = b → c = d)
    (hgt : b < a → d < c) : sign a b = sign c d := by
  unfold sign
  rcases lt_trichotomy a b with h | h | h
  · rw [if_neg (not_lt_of_gt h), if_neg (ne_of_lt h), if_neg (not_lt_of_gt (hlt h)),
      if_neg (ne_of_lt (hlt h))]
  · simp [h, heq h]
  · rw [if_pos h, if_pos (hgt h)]

/-- What a sort by `key` that is not stable may leave of a list. -/
def SortedBy (key : α → ι) (l ws : List α) : Prop :=
  ws.Perm l ∧ ws.Pairwise fun a b => sign (key a) (key b) ≤ 0

theorem sortedBy_insertionSort (key : α → ι) (l : List α) :
    SortedBy key l (l.insertionSort fun a b => key a ≤ key b) := by
  have hsorted := List.pairwise_insertionSort (fun a b => key a ≤ key b) l
  refine ⟨List.perm_insertionSort _ l, hsorted.imp fun {a b} hab => ?_⟩
  exact (sign_nonpos_iff _ _).mpr hab

/-- Sorts by one key differ in the order of equal keys only. -/
theorem sortedBy_keys_eq (key : α → ι) (l ws us : List α) (hws : SortedBy key l ws)
    (hus : SortedBy key l us) : ws.map key = us.map key := by
  have hle (vs : List α) (h : SortedBy key l vs) : (vs.map key).Pairwise (· ≤ ·) := by
    rw [List.pairwise_map]
    exact h.2.imp fun {a b} hab => (sign_nonpos_iff _ _).mp hab
  apply List.Perm.eq_of_pairwise' (hle ws hws) (hle us hus)
  exact (hws.1.trans hus.1.symm).map key

/-- Two members whose keys do not forbid it may come out in the given order. -/
theorem exists_sortedBy (key : α → ι) (l : List α) (a b : α) (ha : a ∈ l) (hb : b ∈ l)
    (hab : a ≠ b) (hkey : key a ≤ key b) : ∃ ws, SortedBy key l ws ∧ [a,b].Sublist ws := by
  classical
  have hperm : (a :: b :: (l.erase a).erase b).Perm l := by
    have hb' : b ∈ l.erase a := (List.mem_erase_of_ne hab.symm).mpr hb
    exact ((List.perm_cons_erase hb').symm.cons a).trans (List.perm_cons_erase ha).symm
  have hpair : [a,b].Sublist (a :: b :: (l.erase a).erase b) := by simp
  let le : α → α → Prop := fun u v => sign (key u) (key v) ≤ 0
  have hle (u v : α) : le u v ↔ key u ≤ key v := sign_nonpos_iff (key u) (key v)
  have htotal : Std.Total le := ⟨fun u v => by
    rw [hle, hle]
    exact le_total (key u) (key v)⟩
  have htrans : IsTrans α le := ⟨fun u v w huv hvw => by
    rw [hle] at huv hvw ⊢
    exact huv.trans hvw⟩
  -- insertion sort is stable, so the pair at the head keeps its order
  refine ⟨List.insertionSort le (a :: b :: (l.erase a).erase b), ⟨?_, ?_⟩, ?_⟩
  · exact (List.perm_insertionSort le _).trans hperm
  · exact List.pairwise_insertionSort le _
  · exact List.pair_sublist_insertionSort ((hle a b).mpr hkey) hpair

/-- Every sort by `key` is in the order of `g` exactly when `key` separates what `g` does. -/
theorem sortedBy_iff (key : α → ι) (g : α → κ) (l : List α) :
    (∀ ws, SortedBy key l ws → ws.Pairwise fun a b => g a ≤ g b) ↔
      ∀ a ∈ l, ∀ b ∈ l, g a < g b → key a < key b := by
  constructor
  · intro hall a ha b hb hg
    by_contra hkey
    have hne : b ≠ a := by
      intro h
      rw [h] at hg
      exact lt_irrefl _ hg
    -- otherwise some sort by `key` leaves `b` in front of `a`
    obtain ⟨ws, hws, hsub⟩ := exists_sortedBy key l b a hb ha hne (not_lt.mp hkey)
    have hpair := (hall ws hws).sublist hsub
    have hle : g b ≤ g a := by simpa using hpair
    exact not_le_of_gt hg hle
  · intro hkey ws hws
    refine hws.2.imp_of_mem ?_
    intro a b ha hb hab
    by_contra hg
    have hlt := hkey b (hws.1.mem_iff.mp hb) a (hws.1.mem_iff.mp ha) (not_le.mp hg)
    exact not_le_of_gt hlt ((sign_nonpos_iff _ _).mp hab)

end SortKeys
