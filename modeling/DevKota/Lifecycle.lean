import DevKota.Runs

/-! Components that are loaded into a host, run in it, and are taken out again, any number of
times. -/
namespace Lifecycle
open Runs

variable {H D G E : Type*}

/-- What a load, an unload and an event do to the host and to the memory of the component. A load
that fails leaves no memory. -/
structure Component (H D G E : Type*) where
  load : H → G → H × Option D
  unload : H → D → Option H
  inside : H → D → E → Option (H × D)
  outside : H → E → Option H

structure State (H D : Type*) where
  host : H
  memory : Option D

inductive Event (G E : Type*)
  | load (grants : G)
  | unload
  | inner (e : E)

/-- What a user of the component keeps to. -/
structure Duty (H D G E : Type*) where
  load : H → G → Prop
  unload : H → D → Prop
  inner : H → D → E → Prop

/-- The duty of one step. -/
def Duty.Met (u : Duty H D G E) (s : State H D) : Event G E → Prop
  | .load g => u.load s.host g
  | .unload => ∀ d, s.memory = some d → u.unload s.host d
  | .inner e => ∀ d, s.memory = some d → u.inner s.host d e

/-- The host is clean while the component is out, and tidy while it is in. -/
def Kept (Clean : H → Prop) (Tidy : H → D → Prop) (s : State H D) : Prop :=
  match s.memory with
  | none => Clean s.host
  | some d => Tidy s.host d

namespace Component
variable (c : Component H D G E)

def step (s : State H D) : Event G E → Option (State H D)
  | .load g => if s.memory.isSome then none else some ⟨(c.load s.host g).1, (c.load s.host g).2⟩
  | .unload => s.memory.bind fun d => (c.unload s.host d).map fun h => ⟨h, none⟩
  | .inner e =>
    match s.memory with
    | some d => (c.inside s.host d e).map fun r => ⟨r.1, some r.2⟩
    | none => (c.outside s.host e).map fun h => ⟨h, none⟩

/-- Everything that a step can do. -/
inductive Did (s t : State H D) : Event G E → Prop
  | load (g : G) (hs : s.memory = none) (ht : t = ⟨(c.load s.host g).1, (c.load s.host g).2⟩) :
      Did s t (.load g)
  | unload (d : D) (hs : s.memory = some d) (hu : c.unload s.host d = some t.host)
      (ht : t.memory = none) : Did s t .unload
  | inside (e : E) (d d' : D) (hs : s.memory = some d) (ht : t.memory = some d')
      (hi : c.inside s.host d e = some (t.host, d')) : Did s t (.inner e)
  | outside (e : E) (hs : s.memory = none) (ht : t.memory = none)
      (ho : c.outside s.host e = some t.host) : Did s t (.inner e)

theorem step_did (s t : State H D) (e : Event G E) (h : c.step s e = some t) : c.Did s t e := by
  cases e with
  | load g =>
    simp only [step] at h
    split_ifs at h with hs
    exact .load g (by simpa using hs) (Option.some.inj h).symm
  | unload =>
    obtain ⟨d, hd, h⟩ := Option.bind_eq_some_iff.mp h
    obtain ⟨h', hu, rfl⟩ := Option.map_eq_some_iff.mp h
    exact .unload d hd hu rfl
  | inner e =>
    simp only [step] at h
    split at h
    · rename_i d hd
      obtain ⟨r, hi, rfl⟩ := Option.map_eq_some_iff.mp h
      exact .inside e d r.2 hd rfl hi
    · rename_i hd
      obtain ⟨h', ho, rfl⟩ := Option.map_eq_some_iff.mp h
      exact .outside e hd rfl ho

/-- What has to be shown of a component: with the invariant of its memory, each step keeps the
host clean and tidy exactly when it meets its duty. -/
structure Honours (I : D → Prop) (Clean : H → Prop) (Tidy : H → D → Prop) (u : Duty H D G E) :
    Prop where
  load (h : H) (g : G) : Clean h → (Kept Clean Tidy ⟨(c.load h g).1, (c.load h g).2⟩ ↔ u.load h g)
  unload (h h' : H) (d : D) : I d → Tidy h d → c.unload h d = some h' → (Clean h' ↔ u.unload h d)
  inside (h h' : H) (d d' : D) (e : E) : I d → Tidy h d → c.inside h d e = some (h', d') →
    (Tidy h' d' ↔ u.inner h d e)
  outside (h h' : H) (e : E) : Clean h → c.outside h e = some h' → Clean h'
  loadInv (h : H) (g : G) (d : D) : (c.load h g).2 = some d → I d
  insideInv (h h' : H) (d d' : D) (e : E) : I d → c.inside h d e = some (h', d') → I d'

variable {c} {I : D → Prop} {Clean : H → Prop} {Tidy : H → D → Prop} {u : Duty H D G E}

theorem memory_step (hc : c.Honours I Clean Tidy u) (s t : State H D) (e : Event G E)
    (hi : ∀ d, s.memory = some d → I d) (hs : c.step s e = some t) :
    ∀ d, t.memory = some d → I d := by
  cases c.step_did s t e hs with
  | load g hm ht =>
    rw [ht]
    exact hc.loadInv s.host g
  | unload d hm hu ht =>
    intro d' hd'
    rw [ht] at hd'
    cases hd'
  | inside e d d' hm ht hin =>
    intro d'' hd''
    rw [ht] at hd''
    obtain rfl := Option.some.inj hd''
    exact hc.insideInv s.host t.host d d' e (hi d hm) hin
  | outside e hm ht ho =>
    intro d hd
    rw [ht] at hd
    cases hd

theorem kept_step (hc : c.Honours I Clean Tidy u) (s t : State H D) (e : Event G E)
    (hi : ∀ d, s.memory = some d → I d) (hk : Kept Clean Tidy s) (hs : c.step s e = some t) :
    Kept Clean Tidy t ↔ u.Met s e := by
  unfold Kept at hk
  cases c.step_did s t e hs with
  -- a load out of a clean host, and an unload and an event out of a tidy one
  | load g hm ht =>
    rw [hm] at hk
    rw [ht]
    exact hc.load s.host g hk
  | unload d hm hu ht =>
    rw [hm] at hk
    simp only [Kept, ht, Duty.Met, hm, Option.some.injEq, forall_eq']
    exact hc.unload s.host t.host d (hi d hm) hk hu
  | inside e d d' hm ht hin =>
    rw [hm] at hk
    simp only [Kept, ht, Duty.Met, hm, Option.some.injEq, forall_eq']
    exact hc.inside s.host t.host d d' e (hi d hm) hk hin
  | outside e hm ht ho =>
    rw [hm] at hk
    simp only [Kept, ht, Duty.Met, hm]
    refine ⟨fun _ d hd => ?_, fun _ => hc.outside s.host t.host e hk ho⟩
    cases hd

/-- The host is clean or tidy throughout a run exactly when every step meets its duty. -/
theorem kept_iff (hc : c.Honours I Clean Tidy u) {h : H} (hclean : Clean h) {es : List (Event G E)}
    {t : State H D} (hr : run c.step (fun _ _ => true) ⟨h, none⟩ es = some t) :
    Always c.step (Kept Clean Tidy) ⟨h, none⟩ es ↔ Meets c.step u.Met ⟨h, none⟩ es :=
  always_iff_meets (I := fun s => ∀ d, s.memory = some d → I d)
    (fun s e t hi _ hs => memory_step hc s t e hi hs)
    (fun s e t hi hk _ hs => kept_step hc s t e hi hk hs) hr (fun d hd => by cases hd) hclean

end Component

end Lifecycle
