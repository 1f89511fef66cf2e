import Mathlib.Data.List.Basic
import Mathlib.Tactic

/-! Successive reads of one open file: where the position goes and what is delivered before
the first read that returns nothing. -/
namespace ChunkedReads

variable {S X B : Type*}

/-- A read in some state: the new state, the bytes it returns and the new position. -/
abbrev Reader (S X B : Type*) := S → X → ℕ → S × List B × ℕ

/-- State and position in front of the `n`th read. -/
def cursor (read : Reader S X B) (s : S) (reads : ℕ → X) : ℕ → S × ℕ
  | 0 => (s,0)
  | n+1 =>
    let c := cursor read s reads n
    let r := read c.1 (reads n) c.2
    (r.1, r.2.2)

/-- What the `n`th read returns. -/
def chunk (read : Reader S X B) (s : S) (reads : ℕ → X) (n : ℕ) : List B :=
  (read (cursor read s reads n).1 (reads n) (cursor read s reads n).2).2.1

/-- The bytes of the first `n` reads. -/
def delivered (read : Reader S X B) (s : S) (reads : ℕ → X) (n : ℕ) : List B :=
  (List.range n).flatMap (chunk read s reads)

/-- Up to a bound the position moves by what is returned, and stays within the bound. -/
def Advances (read : Reader S X B) (bound : ℕ) : Prop :=
  ∀ s x p, p ≤ bound →
    (read s x p).2.2 = p + (read s x p).2.1.length ∧ (read s x p).2.2 ≤ bound

/-- Every read in a good state returns the next bytes of one text, as many as were asked for
or are left, and leaves the state good. -/
structure Serves (read : Reader S X B) (Good : S → Prop) (ok : X → Prop) (size : X → ℕ)
    (text : List B) : Prop where
  good (s : S) (x : X) (p : ℕ) : Good s → ok x → Good (read s x p).1
  bytes (s : S) (x : X) (p : ℕ) : Good s → ok x →
    (read s x p).2.1 = (text.drop p).take (size x)

section Positions
variable {read : Reader S X B} {bound : ℕ} (hadv : Advances read bound) (s : S) (reads : ℕ → X)
include hadv

theorem cursor_le (n : ℕ) : (cursor read s reads n).2 ≤ bound := by
  induction n with
  | zero => exact Nat.zero_le _
  | succ n ih => exact (hadv _ _ _ ih).2

theorem cursor_succ (n : ℕ) :
    (cursor read s reads (n+1)).2 =
      (cursor read s reads n).2 + (chunk read s reads n).length :=
  (hadv _ _ _ (cursor_le hadv s reads n)).1

omit hadv in
theorem delivered_succ (n : ℕ) :
    delivered read s reads (n+1) = delivered read s reads n ++ chunk read s reads n := by
  simp [delivered, List.range_succ]

theorem delivered_length (n : ℕ) :
    (delivered read s reads n).length = (cursor read s reads n).2 := by
  induction n with
  | zero => rfl
  | succ n ih =>
    rw [delivered_succ, List.length_append, ih, cursor_succ hadv]

/-- The reads come to one that returns nothing. -/
theorem exists_first_empty :
    ∃ n, chunk read s reads n = [] ∧ ∀ i < n, chunk read s reads i ≠ [] := by
  have hex : ∃ n, chunk read s reads n = [] := by
    by_contra hne
    push Not at hne
    -- otherwise every read moves the position by at least one
    have hge (n : ℕ) : n ≤ (cursor read s reads n).2 := by
      induction n with
      | zero => exact Nat.zero_le _
      | succ n ih =>
        have hpos := List.length_pos_iff.mpr (hne n)
        rw [cursor_succ hadv]
        omega
    have hle := cursor_le hadv s reads (bound+1)
    have := hge (bound+1)
    omega
  classical
  exact ⟨Nat.find hex, Nat.find_spec hex, fun i hi => Nat.find_min hex hi⟩

end Positions

section Served
variable {read : Reader S X B} {Good : S → Prop} {ok : X → Prop} {size : X → ℕ} {text : List B}

theorem cursor_good (h : Serves read Good ok size text) (s : S) (reads : ℕ → X) (hs : Good s)
    (hok : ∀ n, ok (reads n)) (n : ℕ) : Good (cursor read s reads n).1 := by
  induction n with
  | zero => exact hs
  | succ n ih => exact h.good _ _ _ ih (hok n)

/-- A read returns the bytes from its position on. -/
theorem chunk_eq (h : Serves read Good ok size text) (s : S) (reads : ℕ → X) (hs : Good s)
    (hok : ∀ n, ok (reads n)) (n : ℕ) :
    chunk read s reads n = (text.drop (cursor read s reads n).2).take (size (reads n)) :=
  h.bytes _ _ _ (cursor_good h s reads hs hok n) (hok n)

theorem delivered_eq (h : Serves read Good ok size text) {bound : ℕ}
    (hadv : Advances read bound) (s : S) (reads : ℕ → X) (hs : Good s) (hok : ∀ n, ok (reads n))
    (n : ℕ) : delivered read s reads n = text.take (cursor read s reads n).2 := by
  induction n with
  | zero => rfl
  | succ n ih =>
    have hc := chunk_eq h s reads hs hok n
    rw [delivered_succ, ih, cursor_succ hadv, List.take_add, hc]
    congr 1
    rw [List.length_take, ← List.take_take, List.take_of_length_le (le_refl _)]

/-- With positive sizes the text is delivered exactly once before the first empty read. -/
theorem delivers (h : Serves read Good ok size text) {bound : ℕ} (hadv : Advances read bound)
    (s : S) (reads : ℕ → X) (hs : Good s) (hok : ∀ n, ok (reads n))
    (hpos : ∀ n, 0 < size (reads n)) :
    ∃ n, chunk read s reads n = [] ∧ (∀ i < n, chunk read s reads i ≠ []) ∧
      delivered read s reads n = text := by
  obtain ⟨n, hn, hfirst⟩ := exists_first_empty hadv s reads
  refine ⟨n, hn, hfirst, ?_⟩
  -- nothing is left where a read of positive size returns nothing
  have hdrop : text.drop (cursor read s reads n).2 = [] := by
    have hc := chunk_eq h s reads hs hok n
    rw [hn] at hc
    have hp := hpos n
    rcases List.take_eq_nil_iff.mp hc.symm with hz | hz
    · omega
    · exact hz
  rw [delivered_eq h hadv s reads hs hok, List.take_of_length_le (List.drop_eq_nil_iff.mp hdrop)]

end Served

/-- Every read in a good state returns the next bytes of one text and moves behind them; at the
end of the text it returns nothing and moves back to the start. -/
structure Rewinds (read : Reader S X B) (Good : S → Prop) (ok : X → Prop) (size : X → ℕ)
    (text : List B) : Prop where
  good (s : S) (x : X) (p : ℕ) : Good s → ok x → Good (read s x p).1
  next (s : S) (x : X) (p : ℕ) : Good s → ok x → p < text.length →
    (read s x p).2 = ((text.drop p).take (size x), p + min (size x) (text.length - p))
  back (s : S) (x : X) (p : ℕ) : Good s → ok x → text.length ≤ p → (read s x p).2 = ([],0)

/-- How many of the first `n` reads returned nothing. -/
def passes (read : Reader S X B) (s : S) (reads : ℕ → X) (n : ℕ) : ℕ :=
  (List.range n).countP fun i => (chunk read s reads i).isEmpty

theorem passes_succ (read : Reader S X B) (s : S) (reads : ℕ → X) (n : ℕ) :
    passes read s reads (n+1) =
      passes read s reads n + if (chunk read s reads n).isEmpty = true then 1 else 0 := by
  rw [passes, List.range_succ, List.countP_append, List.countP_singleton]
  rfl

section Rewound
variable {read : Reader S X B} {Good : S → Prop} {ok : X → Prop} {size : X → ℕ} {text : List B}
  (h : Rewinds read Good ok size text) (s : S) (reads : ℕ → X) (hs : Good s)
  (hok : ∀ n, ok (reads n)) (hpos : ∀ n, 0 < size (reads n))
include h hs hok

theorem rewound_good (n : ℕ) : Good (cursor read s reads n).1 := by
  induction n with
  | zero => exact hs
  | succ n ih => exact h.good _ _ _ ih (hok n)

theorem rewound_le (n : ℕ) : (cursor read s reads n).2 ≤ text.length := by
  induction n with
  | zero => exact Nat.zero_le _
  | succ n ih =>
    have hgood := rewound_good h s reads hs hok n
    show (read _ _ _).2.2 ≤ _
    rcases Nat.lt_or_ge (cursor read s reads n).2 text.length with hp | hp
    · rw [h.next _ _ _ hgood (hok n) hp]
      show _ + _ ≤ _
      omega
    · rw [h.back _ _ _ hgood (hok n) hp]
      exact Nat.zero_le _

include hpos

/-- One read: further in the text, or back to its start. -/
theorem rewound_step (n : ℕ) :
    ((cursor read s reads n).2 < (cursor read s reads (n+1)).2 ∧
      passes read s reads (n+1) = passes read s reads n ∧
      text.take (cursor read s reads n).2 ++ chunk read s reads n =
        text.take (cursor read s reads (n+1)).2) ∨
    ((cursor read s reads n).2 = text.length ∧ (cursor read s reads (n+1)).2 = 0 ∧
      passes read s reads (n+1) = passes read s reads n + 1 ∧ chunk read s reads n = []) := by
  have hgood := rewound_good h s reads hs hok n
  have hsize := hpos n
  rw [passes_succ]
  rcases Nat.lt_or_ge (cursor read s reads n).2 text.length with hp | hp
  · left
    have hread := h.next _ _ _ hgood (hok n) hp
    have hchunk : chunk read s reads n =
        (text.drop (cursor read s reads n).2).take (size (reads n)) := congrArg Prod.fst hread
    have hcursor : (cursor read s reads (n+1)).2 = (cursor read s reads n).2 +
        min (size (reads n)) (text.length - (cursor read s reads n).2) := congrArg Prod.snd hread
    have hne : ¬ (chunk read s reads n).isEmpty = true := by
      rw [hchunk, List.isEmpty_iff, List.take_eq_nil_iff, List.drop_eq_nil_iff]
      omega
    rw [if_neg hne]
    refine ⟨by omega, rfl, ?_⟩
    rw [hcursor, hchunk, List.take_add]
    congr 1
    -- what lies behind the end counts for nothing
    rw [← List.length_drop, ← List.take_take, List.take_of_length_le (le_refl _)]
  · right
    have hread := h.back _ _ _ hgood (hok n) hp
    have hchunk : chunk read s reads n = [] := congrArg Prod.fst hread
    refine ⟨le_antisymm (rewound_le h s reads hs hok n) hp, congrArg Prod.snd hread, ?_, hchunk⟩
    rw [hchunk]
    rfl

/-- What is delivered is the whole text for every pass that came to its end, and then the part
of it in front of the position. -/
theorem delivered_passes (n : ℕ) :
    delivered read s reads n = (List.replicate (passes read s reads n) text).flatten ++
      text.take (cursor read s reads n).2 := by
  induction n with
  | zero => rfl
  | succ n ih =>
    rw [delivered_succ, ih, List.append_assoc]
    rcases rewound_step h s reads hs hok hpos n with ⟨-, hsame, htake⟩ | ⟨hend, hzero, hone, hnil⟩
    · rw [htake, hsame]
    · rw [hend, hzero, hone, hnil, List.take_length, List.take_zero, List.append_nil,
        List.append_nil, List.replicate_succ', List.flatten_append, List.flatten_singleton]

/-- A pass comes to its end. -/
theorem exists_pass (k : ℕ) :
    ∃ n, passes read s reads n = k ∧ (cursor read s reads n).2 = 0 := by
  -- the rest of the text gets shorter until it is used up
  have hend (r n : ℕ) (hr : text.length - (cursor read s reads n).2 ≤ r) :
      ∃ m, passes read s reads m = passes read s reads n + 1 ∧ (cursor read s reads m).2 = 0 := by
    induction r generalizing n with
    | zero =>
      rcases rewound_step h s reads hs hok hpos n with ⟨hlt, -, -⟩ | ⟨-, hzero, hone, -⟩
      · have := rewound_le h s reads hs hok (n+1)
        omega
      · exact ⟨n+1, hone, hzero⟩
    | succ r ih =>
      rcases rewound_step h s reads hs hok hpos n with ⟨hlt, hsame, -⟩ | ⟨-, hzero, hone, -⟩
      · have := rewound_le h s reads hs hok (n+1)
        obtain ⟨m, hm, hzero⟩ := ih (n+1) (by omega)
        exact ⟨m, by rw [hm, hsame], hzero⟩
      · exact ⟨n+1, hone, hzero⟩
  induction k with
  | zero => exact ⟨0, rfl, rfl⟩
  | succ k ih =>
    obtain ⟨n, hn, -⟩ := ih
    obtain ⟨m, hm, hzero⟩ := hend _ n (le_refl _)
    exact ⟨m, by rw [hm, hn], hzero⟩

/-- The text is delivered any number of times, with an empty read behind each. -/
theorem delivers_again (k : ℕ) :
    ∃ n, passes read s reads n = k ∧
      delivered read s reads n = (List.replicate k text).flatten := by
  obtain ⟨n, hn, hzero⟩ := exists_pass h s reads hs hok hpos k
  refine ⟨n, hn, ?_⟩
  rw [delivered_passes h s reads hs hok hpos, hn, hzero, List.take_zero, List.append_nil]

end Rewound

end ChunkedReads
