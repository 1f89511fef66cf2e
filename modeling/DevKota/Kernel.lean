import DevKota.CString
import DevKota.WrappedClock

/-! The parts of the Linux kernel interface that timer drivers use, on a 32-bit machine:
the tick counter, `struct timer_list`, the calling task and user buffers. -/
namespace Kernel
open CString

/-- `unsigned long`, `unsigned int` and `size_t`. -/
abbrev Word := BitVec 32

/-- The tick counter is the low word of an unbounded clock. -/
def jiffies (now : ℕ) : Word := BitVec.ofNat 32 now

def EFAULT : ℤ := 14
def EBUSY : ℤ := 16
def EINVAL : ℤ := 22
def ENOMEM : ℤ := 12
def ERANGE : ℤ := 34

/-- The clock instant that an expiry word stands for when it is handed to the kernel:
words behind the counter are already due. -/
def dueOf (now : ℕ) (expires : Word) : ℕ :=
  if (expires - jiffies now).toNat < 2^31 then now + (expires - jiffies now).toNat else now

/-- A kernel timer, with the callbacks of one driver as the type `F`. The field `due` is
the instant behind the word `expires`, and `stray` says that the timer was initialised while it was
pending: then some bucket of the wheel points to it for good. -/
structure TimerList (F : Type) where
  expires : Word
  due : ℕ
  function : Option F
  pending : Bool
  stray : Bool
  deriving DecidableEq

namespace TimerList

variable {F : Type}

/-- Statically zeroed memory. -/
def zeroed : TimerList F := ⟨0, 0, none, false, false⟩

/-- `timer_setup`: the callback is stored and the entry counts as not pending. An entry that was is
not taken out of its bucket. -/
def setup (t : TimerList F) (f : Option F) : TimerList F :=
  { t with function := f, pending := false, stray := t.stray || t.pending }

/-- `mod_timer`: arms the timer whether or not it was pending. -/
def modTimer (t : TimerList F) (now : ℕ) (expires : Word) : TimerList F :=
  { t with expires := expires, due := dueOf now expires, pending := true }

/-- `del_timer` and `del_timer_sync`. -/
def delTimer (t : TimerList F) : TimerList F := { t with pending := false }

/-- The wheel points to the timer. -/
def linked (t : TimerList F) : Bool := t.pending || t.stray

/-- The kernel may run the callback at any instant from `due` on. -/
def Expired (t : TimerList F) (now : ℕ) : Prop := t.pending = true ∧ t.due ≤ now

instance (t : TimerList F) (now : ℕ) : Decidable (t.Expired now) :=
  inferInstanceAs (Decidable (_ ∧ _))

@[simp] theorem modTimer_due (t : TimerList F) (now : ℕ) (e : Word) :
    (t.modTimer now e).due = dueOf now e := rfl
@[simp] theorem delTimer_pending (t : TimerList F) : t.delTimer.pending = false := rfl

end TimerList

/-- A deadline less than half the counter's range ahead is kept exactly. -/
theorem dueOf_add (now d : ℕ) (hd : d < 2^31) :
    dueOf now (jiffies now + BitVec.ofNat 32 d) = now + d := by
  have ha : (jiffies now + BitVec.ofNat 32 d - jiffies now).toNat = d := by
    rw [BitVec.add_comm, BitVec.add_sub_cancel, BitVec.toNat_ofNat]
    exact Nat.mod_eq_of_lt (by omega)
  rw [dueOf, ha, if_pos hd]

theorem jiffies_eq (now : ℕ) : jiffies now = WrappedClock.shown 32 now :=
  (WrappedClock.shown_natCast 32 now).symm

theorem jiffies_add (now d : ℕ) : jiffies (now + d) = jiffies now + BitVec.ofNat 32 d := by
  unfold jiffies
  exact BitVec.ofNat_add now d

/-- `current`: the calling task. Its name fits `TASK_COMM_LEN` with the NUL. -/
structure Task where
  pid : ℕ
  comm : List Byte
  pid_pos : 0 < pid
  pid_lt : pid < 2^31
  comm_length : comm.length ≤ 15
  comm_zero : 0 ∉ comm

/-- A user buffer handed to a write; `copy_from_user` fails on an unmapped one. -/
structure UserBuf where
  bytes : List Byte
  mapped : Bool
  deriving DecidableEq

end Kernel
