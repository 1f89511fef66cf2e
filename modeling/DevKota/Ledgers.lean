import Mathlib.Order.BooleanAlgebra.Set
import Mathlib.Data.List.Nodup
import Mathlib.Algebra.BigOperators.Group.List.Basic

/-! Ledgers of allocated blocks, and who owns the blocks that are not freed yet. -/
namespace Ledgers

/-- Blocks are numbered as they are handed out, and a block is freed at most once. -/
@[ext]
structure Ledger where
  next : ℕ
  freed : List ℕ
  nodup : freed.Nodup
  below (id : ℕ) : id ∈ freed → id < next

namespace Ledger
variable (l : Ledger)

/-- Handed out and not freed. -/
def Live (id : ℕ) : Prop := id < l.next ∧ id ∉ l.freed

def alloc : Ledger where
  next := l.next+1
  freed := l.freed
  nodup := l.nodup
  below id hid := Nat.lt_succ_of_lt (l.below id hid)

def free (id : ℕ) (h : l.Live id) : Ledger where
  next := l.next
  freed := id :: l.freed
  nodup := List.nodup_cons.mpr ⟨h.2, l.nodup⟩
  below id' hid' := by
    rcases List.mem_cons.mp hid' with rfl | hid'
    · exact h.1
    · exact l.below id' hid'

/-- The owned blocks are exactly the live ones: none is lost, and none is used after it was
freed. -/
def OwnedBy (owned : Set ℕ) : Prop := ∀ id, l.Live id ↔ id ∈ owned

theorem live_alloc (id : ℕ) : l.alloc.Live id ↔ l.Live id ∨ id = l.next := by
  have hnext : l.next ∉ l.freed := fun hid => lt_irrefl _ (l.below _ hid)
  constructor
  · rintro ⟨hlt, hid⟩
    rcases Nat.lt_succ_iff_lt_or_eq.mp hlt with hlt | heq
    · exact Or.inl ⟨hlt, hid⟩
    · exact Or.inr heq
  · rintro (⟨hlt, hid⟩ | rfl)
    · exact ⟨Nat.lt_succ_of_lt hlt, hid⟩
    · exact ⟨Nat.lt_succ_self _, hnext⟩

theorem live_free (k : ℕ) (h : l.Live k) (id : ℕ) : (l.free k h).Live id ↔ l.Live id ∧ id ≠ k := by
  unfold Live free
  rw [List.mem_cons]
  tauto

variable {l} {owned lost : Set ℕ}

/-- A new block belongs to whoever asked for it. -/
theorem ownedBy_alloc (h : l.OwnedBy owned) : l.alloc.OwnedBy (owned ∪ {l.next}) := by
  intro id
  rw [live_alloc, h id]
  rfl

theorem ownedBy_free (h : l.OwnedBy owned) (k : ℕ) (hk : l.Live k) :
    (l.free k hk).OwnedBy (owned \ {k}) := by
  intro id
  rw [live_free, h id]
  rfl

/-- Whoever drops blocks without freeing them leaks them. -/
theorem ownedBy_drop_iff (h : l.OwnedBy owned) (hlost : lost ⊆ owned) :
    l.OwnedBy (owned \ lost) ↔ lost = ∅ := by
  constructor
  · intro hdrop
    apply Set.eq_empty_of_forall_notMem
    intro id hid
    have hlive := (h id).mpr (hlost hid)
    exact ((hdrop id).mp hlive).2 hid
  · rintro rfl
    rw [Set.sdiff_empty]
    exact h

/-- Without owners every block that was ever handed out has been freed exactly once. -/
theorem settled (h : l.OwnedBy ∅) (id : ℕ) (hid : id < l.next) : l.freed.count id = 1 := by
  apply List.count_eq_one_of_mem l.nodup
  by_contra hnot
  exact (h id).mp ⟨hid, hnot⟩

end Ledger

/-- A ledger with the live blocks that somebody can still free. -/
@[ext]
structure Account where
  ledger : Ledger
  reached : Set ℕ
  live (id : ℕ) : id ∈ reached → ledger.Live id

namespace Account
variable (a : Account)

/-- The live blocks that nobody will ever free. -/
def lost : Set ℕ := {id | a.ledger.Live id ∧ id ∉ a.reached}

/-- A new block is handed out. -/
def take : Account where
  ledger := a.ledger.alloc
  reached := a.reached ∪ {a.ledger.next}
  live id hid := (a.ledger.live_alloc id).mpr (hid.imp_left (a.live id))

/-- Blocks go out of reach. -/
def drop (s : Set ℕ) : Account where
  ledger := a.ledger
  reached := a.reached \ s
  live id hid := a.live id hid.1

/-- A block is freed. -/
def release (k : ℕ) (hk : k ∈ a.reached) : Account where
  ledger := a.ledger.free k (a.live k hk)
  reached := a.reached \ {k}
  live id hid := (a.ledger.live_free k _ id).mpr ⟨a.live id hid.1, hid.2⟩

theorem next_not_lost : a.ledger.next ∉ a.lost := fun h => lt_irrefl _ h.1.1

theorem lost_take : a.take.lost = a.lost := by
  ext id
  constructor
  · rintro ⟨hlive, hnot⟩
    rcases (a.ledger.live_alloc id).mp hlive with hold | rfl
    · exact ⟨hold, fun hid => hnot (Or.inl hid)⟩
    · exact absurd (Or.inr rfl) hnot
  · rintro h
    refine ⟨(a.ledger.live_alloc id).mpr (Or.inl h.1), ?_⟩
    rintro (hid | rfl)
    · exact h.2 hid
    · exact a.next_not_lost h

/-- What is dropped within reach is lost, and what was lost stays lost. -/
theorem lost_drop (s : Set ℕ) : (a.drop s).lost = a.lost ∪ a.reached ∩ s := by
  ext id
  constructor
  · rintro ⟨hlive, hnot⟩
    by_cases hid : id ∈ a.reached
    · apply Or.inr
      exact ⟨hid, by_contra fun hs => hnot ⟨hid, hs⟩⟩
    · exact Or.inl ⟨hlive, hid⟩
  · rintro (⟨hlive, hnot⟩ | ⟨hid, hs⟩)
    · exact ⟨hlive, fun h => hnot h.1⟩
    · exact ⟨a.live id hid, fun h => h.2 hs⟩

theorem lost_release (k : ℕ) (hk : k ∈ a.reached) : (a.release k hk).lost = a.lost := by
  ext id
  constructor
  · rintro ⟨hlive, hnot⟩
    obtain ⟨hold, hne⟩ := (a.ledger.live_free k (a.live k hk) id).mp hlive
    exact ⟨hold, fun hid => hnot ⟨hid, hne⟩⟩
  · rintro ⟨hlive, hnot⟩
    have hne : id ≠ k := fun h => hnot (h ▸ hk)
    exact ⟨(a.ledger.live_free k (a.live k hk) id).mpr ⟨hlive, hne⟩, fun h => hnot h.1⟩

/-- Nothing is lost and nothing reached exactly when everything was freed once. -/
theorem settled_iff :
    a.lost = ∅ ∧ a.reached = ∅ ↔ ∀ id < a.ledger.next, a.ledger.freed.count id = 1 := by
  constructor
  · rintro ⟨hlost, hreached⟩
    apply Ledger.settled
    intro id
    refine ⟨fun hlive => ?_, fun hid => hid.elim⟩
    have hid : id ∈ a.lost := ⟨hlive, by rw [hreached]; exact Set.notMem_empty id⟩
    rw [hlost] at hid
    exact hid
  · intro hall
    have hnone (id : ℕ) : ¬ a.ledger.Live id := by
      rintro ⟨hlt, hnot⟩
      have hcount := hall id hlt
      rw [List.count_eq_zero_of_not_mem hnot] at hcount
      cases hcount
    constructor
    · apply Set.eq_empty_of_forall_notMem
      exact fun id hid => hnone id hid.1
    · apply Set.eq_empty_of_forall_notMem
      exact fun id hid => hnone id (a.live id hid)

end Account

/-- One place of a list is overwritten: the total gives up the old entry's share and gets the new
one's. -/
theorem sum_map_set {A M : Type*} [AddCommMonoid M] (f : A → M) (l : List A) (i : ℕ) (old new : A)
    (h : l[i]? = some old) : ((l.set i new).map f).sum + f old = (l.map f).sum + f new := by
  induction l generalizing i with
  | nil => cases h
  | cons a l ih =>
    cases i with
    | zero =>
      rw [← Option.some.inj h]
      simp only [List.set_cons_zero, List.map_cons, List.sum_cons]
      calc f new + (l.map f).sum + f a = f new + f a + (l.map f).sum := add_right_comm _ _ _
        _ = f a + f new + (l.map f).sum := by rw [add_comm (f new)]
        _ = f a + (l.map f).sum + f new := add_right_comm _ _ _
    | succ i =>
      simp only [List.set_cons_succ, List.map_cons, List.sum_cons, add_assoc]
      rw [ih i h]

end Ledgers
