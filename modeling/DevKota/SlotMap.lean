import Mathlib.Data.Set.Card
import Mathlib.Data.Fintype.Card
import Mathlib.Tactic

/-! Bounded maps, and tables of slots that stand for them: every slot is free or holds one
key with its value, and no key is held twice. -/
namespace SlotMap

variable {K V : Type*}

/-- The number of keys of a map. -/
noncomputable def size (m : K → Option V) : ℕ := {k | m k ≠ none}.ncard

section BoundedMap
variable [DecidableEq K]

/-- Assign to a key of a map that may hold at most `capacity` keys: a present key has its
value changed by `f`, an absent one is inserted with `new` when there is room. -/
noncomputable def assign (capacity : ℤ) (m : K → Option V) (k : K) (f : V → V) (new : V) :
    K → Option V :=
  match m k with
  | some v => Function.update m k (some (f v))
  | none => if (size m : ℤ) < capacity then Function.update m k (some new) else m

def erase (m : K → Option V) (k : K) : K → Option V := Function.update m k none

end BoundedMap

/-- A table of `n` slots. -/
abbrev Table (n : ℕ) (K V : Type*) := Fin n → Option (K × V)

variable {n : ℕ}

def Keyed (t : Table n K V) : Prop :=
  ∀ i j k v w, t i = some (k,v) → t j = some (k,w) → i = j

def occupied (t : Table n K V) : Finset (Fin n) :=
  Finset.univ.filter fun i => (t i).isSome

section Entries

open scoped Classical in
/-- The map a table stands for. -/
noncomputable def entries (t : Table n K V) (k : K) : Option V :=
  if h : ∃ v i, t i = some (k,v) then some h.choose else none

theorem entries_eq_some (t : Table n K V) (ht : Keyed t) (k : K) (v : V) :
    entries t k = some v ↔ ∃ i, t i = some (k,v) := by
  unfold entries
  constructor
  · intro h
    split_ifs at h with hex
    exact Option.some.inj h ▸ hex.choose_spec
  · -- the slot that was chosen is slot `i`, since no other has the key
    intro hslot
    obtain ⟨i, hi⟩ := hslot
    have hex : ∃ v i, t i = some (k,v) := ⟨v, i, hi⟩
    obtain ⟨j, hj⟩ := hex.choose_spec
    have hij := ht i j k _ _ hi hj
    rw [← hij, hi] at hj
    rw [dif_pos hex]
    exact congrArg some (Prod.mk.inj (Option.some.inj hj)).2.symm

theorem entries_eq_none (t : Table n K V) (k : K) :
    entries t k = none ↔ ∀ i v, t i ≠ some (k,v) := by
  unfold entries
  split_ifs with h
  · obtain ⟨v, i, hi⟩ := h
    exact ⟨(fun hn => nomatch hn), fun hn => absurd hi (hn i v)⟩
  · exact ⟨fun _ i v hi => h ⟨v, i, hi⟩, fun _ => rfl⟩

theorem map_ext (m m' : K → Option V) (h : ∀ k v, m k = some v ↔ m' k = some v) : m = m' := by
  funext k
  exact Option.ext fun v => h k v

/-- The keys of the map are as many as the occupied slots. -/
theorem size_entries (t : Table n K V) (ht : Keyed t) : size (entries t) = (occupied t).card := by
  have hsome (i : Fin n) (hi : i ∈ occupied t) : ∃ kv, t i = some kv :=
    Option.isSome_iff_exists.mp (Finset.mem_filter.mp hi).2
  symm
  unfold size
  rw [← Set.ncard_coe_finset]
  -- a slot is counted by its key: into the map, injective, onto
  refine Set.ncard_congr (fun i hi => (hsome i hi).choose.1) ?_ ?_ ?_
  · intro i hi hnone
    have hc := (hsome i hi).choose_spec
    exact (entries_eq_none t _).mp hnone i (hsome i hi).choose.2 hc
  · intro i j hi hj hij
    have hci := (hsome i hi).choose_spec
    have hcj := (hsome j hj).choose_spec
    refine ht i j (hsome i hi).choose.1 (hsome i hi).choose.2 (hsome j hj).choose.2 hci ?_
    rw [hij]
    exact hcj
  · intro k hk
    obtain ⟨v, hv⟩ := Option.ne_none_iff_exists'.mp hk
    obtain ⟨i, hi⟩ := (entries_eq_some t ht k v).mp hv
    have hmem : i ∈ occupied t := by simp [occupied, hi]
    refine ⟨i, hmem, ?_⟩
    have hc := hi.symm.trans (hsome i hmem).choose_spec
    exact congrArg Prod.fst (Option.some.inj hc).symm

variable [DecidableEq K]

omit [DecidableEq K] in
theorem map_mk_eq_some (k l : K) (o : Option V) (x : V) :
    o.map (Prod.mk k) = some (l,x) ↔ k = l ∧ o = some x := by
  cases o <;> simp

omit [DecidableEq K] in
/-- A slot may be given a key that no other slot holds, or be emptied. -/
theorem keyed_fill (t : Table n K V) (ht : Keyed t) (i : Fin n) (k : K) (o : Option V)
    (hother : ∀ j, j ≠ i → ∀ x, t j ≠ some (k,x)) :
    Keyed (Function.update t i (o.map (Prod.mk k))) := by
  intro a b l x y ha hb
  simp only [Function.update_apply] at ha hb
  -- only slot `i` holds `k` now; two other slots are as before
  split_ifs at ha hb with hai hbi hbi
  · exact hai.trans hbi.symm
  · obtain ⟨rfl, -⟩ := (map_mk_eq_some k l o x).mp ha
    exact absurd hb (hother b hbi y)
  · obtain ⟨rfl, -⟩ := (map_mk_eq_some k l o y).mp hb
    exact absurd ha (hother a hai x)
  · exact ht a b l x y ha hb

/-- A slot that is free or holds the key, with the key in no other slot, may be given any
value of that key or be emptied: the map changes at the key only. -/
theorem entries_fill (t : Table n K V) (ht : Keyed t) (i : Fin n) (k : K) (o : Option V)
    (hi : ∀ l y, t i = some (l,y) → l = k) (hother : ∀ j, j ≠ i → ∀ x, t j ≠ some (k,x)) :
    Keyed (Function.update t i (o.map (Prod.mk k))) ∧
      entries (Function.update t i (o.map (Prod.mk k))) = Function.update (entries t) k o := by
  have hkeyed := keyed_fill t ht i k o hother
  have hat (l : K) (x : V) := map_mk_eq_some k l o x
  refine ⟨hkeyed, map_ext _ _ ?_⟩
  intro l x
  rw [entries_eq_some _ hkeyed]
  by_cases hl : l = k
  · subst hl
    rw [Function.update_self]
    constructor
    · intro hslot
      obtain ⟨j, hj⟩ := hslot
      simp only [Function.update_apply] at hj
      split_ifs at hj with hji
      · exact ((hat l x).mp hj).2
      · exact absurd hj (hother j hji x)
    · intro hx
      exact ⟨i, by rw [Function.update_self, hx, Option.map_some]⟩
  · -- any other key keeps its slot, which is not `i`
    rw [Function.update_of_ne hl, entries_eq_some t ht]
    constructor
    · intro hslot
      obtain ⟨j, hj⟩ := hslot
      simp only [Function.update_apply] at hj
      split_ifs at hj with hji
      · exact absurd ((hat l x).mp hj).1.symm hl
      · exact ⟨j, hj⟩
    · intro hslot
      obtain ⟨j, hj⟩ := hslot
      have hji : j ≠ i := by
        intro he
        rw [he] at hj
        exact hl (hi l x hj)
      exact ⟨j, by rw [Function.update_of_ne hji, hj]⟩

theorem update_value (t : Table n K V) (ht : Keyed t) (i : Fin n) (k : K) (v w : V)
    (hi : t i = some (k,v)) :
    Keyed (Function.update t i (some (k,w))) ∧
      entries (Function.update t i (some (k,w))) = Function.update (entries t) k (some w) ∧
      occupied (Function.update t i (some (k,w))) = occupied t := by
  have hfill := entries_fill t ht i k (some w)
    (fun l y hy => (Prod.mk.inj (Option.some.inj (hi.symm.trans hy))).1.symm)
    (fun j hj x hx => hj (ht j i k x v hx hi))
  refine ⟨hfill.1, hfill.2, ?_⟩
  ext j
  simp only [occupied, Finset.mem_filter, Finset.mem_univ, true_and, Function.update_apply]
  split_ifs with hji
  · simp [hji, hi]
  · rfl

theorem update_insert (t : Table n K V) (ht : Keyed t) (i : Fin n) (k : K) (w : V)
    (hi : t i = none) (hk : entries t k = none) :
    Keyed (Function.update t i (some (k,w))) ∧
      entries (Function.update t i (some (k,w))) = Function.update (entries t) k (some w) ∧
      (occupied (Function.update t i (some (k,w)))).card = (occupied t).card + 1 := by
  have hfill := entries_fill t ht i k (some w) (fun l y hy => nomatch hi.symm.trans hy)
    (fun j _ x => (entries_eq_none t k).mp hk j x)
  refine ⟨hfill.1, hfill.2, ?_⟩
  have hnot : i ∉ occupied t := by simp [occupied, hi]
  have hins : occupied (Function.update t i (some (k,w))) = insert i (occupied t) := by
    ext j
    simp only [occupied, Finset.mem_insert, Finset.mem_filter, Finset.mem_univ, true_and,
      Function.update_apply]
    split_ifs with hji <;> simp [hji]
  rw [hins, Finset.card_insert_of_notMem hnot]

theorem update_free (t : Table n K V) (ht : Keyed t) (i : Fin n) (k : K) (v : V)
    (hi : t i = some (k,v)) :
    Keyed (Function.update t i none) ∧
      entries (Function.update t i none) = erase (entries t) k ∧
      (occupied (Function.update t i none)).card + 1 = (occupied t).card := by
  have hfill := entries_fill t ht i k none
    (fun l y hy => (Prod.mk.inj (Option.some.inj (hi.symm.trans hy))).1.symm)
    (fun j hj x hx => hj (ht j i k x v hx hi))
  refine ⟨hfill.1, hfill.2, ?_⟩
  have hmem : i ∈ occupied t := by simp [occupied, hi]
  have hers : occupied (Function.update t i none) = (occupied t).erase i := by
    ext j
    simp only [occupied, Finset.mem_erase, Finset.mem_filter, Finset.mem_univ, true_and,
      Function.update_apply]
    split_ifs with hji <;> simp [hji]
  rw [hers]
  exact Finset.card_erase_add_one hmem

omit [DecidableEq K] in
theorem exists_free (t : Table n K V) (h : (occupied t).card < n) : ∃ i, t i = none := by
  by_contra hne
  have hall : occupied t = Finset.univ := by
    ext i
    have hi : t i ≠ none := fun hi => hne ⟨i, hi⟩
    simpa [occupied] using Option.isSome_iff_ne_none.mpr hi
  rw [hall, Finset.card_univ, Fintype.card_fin] at h
  exact lt_irrefl n h

omit [DecidableEq K] in
theorem occupied_card_lt (t : Table n K V) (i : Fin n) (h : t i = none) : (occupied t).card < n := by
  have hlt : (occupied t).card < (Finset.univ : Finset (Fin n)).card := by
    apply Finset.card_lt_univ_of_notMem (x := i)
    simp [occupied, h]
  rwa [Finset.card_univ, Fintype.card_fin] at hlt

omit [DecidableEq K] in
theorem occupied_card_le (t : Table n K V) : (occupied t).card ≤ n := by
  simpa using Finset.card_le_univ (occupied t)

end Entries

section Size

theorem finite_entries (t : Table n K V) (ht : Keyed t) : {k | entries t k ≠ none}.Finite := by
  apply (Set.finite_range fun i => (t i).map Prod.fst).preimage
    (Option.some_injective K).injOn |>.subset
  intro k hk
  obtain ⟨v, hv⟩ := Option.ne_none_iff_exists'.mp hk
  obtain ⟨i, hi⟩ := (entries_eq_some t ht k v).mp hv
  exact ⟨i, by simp [hi]⟩

variable [DecidableEq K] (m : K → Option V) (k : K)

theorem size_update (w : V) (hk : m k ≠ none) : size (Function.update m k (some w)) = size m := by
  apply congrArg Set.ncard
  ext l
  by_cases hl : l = k
  · subst hl
    simp [hk]
  · simp [hl]

theorem size_insert (hm : {l | m l ≠ none}.Finite) (w : V) (hk : m k = none) :
    size (Function.update m k (some w)) = size m + 1 := by
  have hins : {l | Function.update m k (some w) l ≠ none} = insert k {l | m l ≠ none} := by
    ext l
    by_cases hl : l = k
    · subst hl
      simp
    · simp [hl]
  rw [size, hins, Set.ncard_insert_of_notMem (by simp [hk]) hm]
  rfl

theorem size_erase (hm : {l | m l ≠ none}.Finite) (hk : m k ≠ none) :
    size (erase m k) + 1 = size m := by
  have hers : {l | erase m k l ≠ none} = {l | m l ≠ none} \ {k} := by
    ext l
    by_cases hl : l = k
    · subst hl
      simp [erase]
    · simp [erase, hl]
  rw [size, hers]
  exact Set.ncard_sdiff_singleton_add_one hk hm

end Size

end SlotMap
