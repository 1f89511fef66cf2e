import DevKota.SortKeys
import Mathlib.Analysis.Real.Sqrt

/-! The two vertex sorts: by distance, and by a squared distance computed in `int`. -/
namespace DevKota.Hw3
open SortKeys

/-- A line of the input file. -/
structure Vertex where
  x : BitVec 32
  y : BitVec 32
  z : BitVec 32
  deriving DecidableEq

/-- An array element. The field `distance` is a `double` in both programs: in one it only
ever holds the value of an `int`, in the other it is taken as exact. -/
structure My3DVertexStruct (D : Type) where
  x : BitVec 32
  y : BitVec 32
  z : BitVec 32
  distance : D

/-- `compare`, the same in both programs. -/
def compare {D : Type} [LinearOrder D] (v1 v2 : My3DVertexStruct D) : ℤ :=
  if v1.distance > v2.distance then 1 else if v1.distance = v2.distance then 0 else -1

/-- `array[count]` of `qsort_large_optimal`: `int` arithmetic wraps before the store. -/
def optimalVertex (v : Vertex) : My3DVertexStruct ℤ :=
  ⟨v.x, v.y, v.z, (v.x*v.x + v.y*v.y + v.z*v.z).toInt⟩

/-- `array[count]` of `qsort_large`. -/
noncomputable def originalVertex (v : Vertex) : My3DVertexStruct ℝ :=
  ⟨v.x, v.y, v.z, Real.sqrt ((v.x.toInt:ℝ)^2 + (v.y.toInt:ℝ)^2 + (v.z.toInt:ℝ)^2)⟩

/-- The lists that `qsort` may leave in the array of `qsort_large_optimal`. -/
def OptimalOutput (vs ws : List Vertex) : Prop :=
  ws.Perm vs ∧ ws.Pairwise fun u v => compare (optimalVertex u) (optimalVertex v) ≤ 0

def exactSquare (v : Vertex) : ℤ := v.x.toInt^2 + v.y.toInt^2 + v.z.toInt^2

/-- How often the sum wraps around on its way into an `int`. -/
def wraps (v : Vertex) : ℤ := (exactSquare v + 2^31) / 2^32

/-- The stored key is the exact square less its wraps. -/
theorem optimal_distance (v : Vertex) :
    (optimalVertex v).distance = exactSquare v - 2^32*wraps v := by
  have hword : v.x*v.x + v.y*v.y + v.z*v.z = BitVec.ofInt 32 (exactSquare v) := by
    simp only [exactSquare, pow_two, BitVec.ofInt_add, BitVec.ofInt_mul, BitVec.ofInt_toInt]
  -- wrapping at each operation is wrapping once at the end
  have hb : (optimalVertex v).distance = (exactSquare v).bmod (2^32) := by
    simp only [optimalVertex, hword, BitVec.toInt_ofInt]
  rw [hb, Int.bmod_def]
  simp only [wraps]
  split_ifs <;> omega

/-- The original program compares exact squares. -/
theorem compare_original (u v : Vertex) :
    compare (originalVertex u) (originalVertex v) = sign (exactSquare u) (exactSquare v) := by
  have hcast (w : Vertex) : (originalVertex w).distance = Real.sqrt (exactSquare w : ℝ) := by
    simp [originalVertex, exactSquare]
  have hnonneg (w : Vertex) : (0:ℝ) ≤ exactSquare w := by
    have h : 0 ≤ exactSquare w := by
      unfold exactSquare
      positivity
    exact_mod_cast h
  have hlt (a b : Vertex) (h : exactSquare a < exactSquare b) :
      (originalVertex a).distance < (originalVertex b).distance := by
    rw [hcast, hcast]
    exact Real.sqrt_lt_sqrt (hnonneg a) (by exact_mod_cast h)
  symm
  apply sign_congr
  · exact hlt u v
  · intro h
    rw [hcast, hcast, h]
  · exact hlt v u

/-- The optimised program stands in for the original on a list: it compares any two of its
vectors as the original does, and leaves every list it sorts in the order of the distances. -/
structure SortsLikeOriginal (vs : List Vertex) : Prop where
  signs : ∀ u ∈ vs, ∀ v ∈ vs,
    compare (optimalVertex u) (optimalVertex v) = compare (originalVertex u) (originalVertex v)
  ordered : ∀ ws, OptimalOutput vs ws → ws.Pairwise fun u v => exactSquare u ≤ exactSquare v

/-- Nearer vectors stay nearer in the wrapped key. -/
def WrapsApart (vs : List Vertex) : Prop :=
  ∀ u ∈ vs, ∀ v ∈ vs, exactSquare u < exactSquare v →
    2^32*(wraps v - wraps u) < exactSquare v - exactSquare u

theorem key_lt_iff (u v : Vertex) :
    (optimalVertex u).distance < (optimalVertex v).distance ↔
      2^32*(wraps v - wraps u) < exactSquare v - exactSquare u := by
  rw [optimal_distance, optimal_distance]
  constructor <;> intro h <;> linarith

/-- The optimised sort orders like the original exactly on the lists in which no difference
of squares is used up by the wraps; the order of its output alone already needs this. -/
theorem optimal_sort_iff (vs : List Vertex) :
    (SortsLikeOriginal vs ↔ WrapsApart vs) ∧
      ((∀ ws, OptimalOutput vs ws → ws.Pairwise fun u v => exactSquare u ≤ exactSquare v) ↔
        WrapsApart vs) := by
  have hsorted : (∀ ws, OptimalOutput vs ws →
      ws.Pairwise fun u v => exactSquare u ≤ exactSquare v) ↔ WrapsApart vs := by
    have h := sortedBy_iff (fun v => (optimalVertex v).distance) exactSquare vs
    simp only [key_lt_iff] at h
    exact h
  refine ⟨⟨fun h => hsorted.mp h.ordered, fun h => ⟨?_, hsorted.mpr h⟩⟩, hsorted⟩
  intro u hu v hv
  rw [compare_original]
  symm
  apply sign_congr
  · intro hlt
    exact (key_lt_iff u v).mpr (h u hu v hv hlt)
  · intro heq
    rw [optimal_distance, optimal_distance, wraps, wraps, heq]
  · intro hlt
    exact (key_lt_iff v u).mpr (h v hv u hu hlt)

/-- 46341 squared does not fit an `int`. -/
theorem optimal_sort_misorders : ¬ ∀ vs, SortsLikeOriginal vs := by
  intro hall
  have h := (optimal_sort_iff [⟨46341, 0, 0⟩, ⟨1, 0, 0⟩]).1.mp (hall _)
  have hlt := h ⟨1, 0, 0⟩ (by simp) ⟨46341, 0, 0⟩ (by simp) (by decide)
  exact absurd hlt (by decide)

end DevKota.Hw3
