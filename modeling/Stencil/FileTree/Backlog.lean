/-!
# FileTree — Backlog

How far the bytes written to a file have got.  Texts wait until there are enough of them, and then
all go into the file together.  No byte is lost on the way (`total_add`), none that has arrived
comes back (`arrived_le_add`), and those that wait are always too few to go (`waiting_add_lt`).
-/

namespace Stencil

/-- How many bytes wait, and how many have arrived. -/
structure Backlog where
  waiting : Nat
  arrived : Nat

namespace Backlog

/-- Nothing has been written. -/
def start : Backlog := ⟨0, 0⟩

/-- So many bytes wait no longer. -/
def room : Nat := 8192

/-- All bytes written so far. -/
def total (b : Backlog) : Nat :=
  b.waiting + b.arrived

/-- Takes a text of `n` bytes, with which all that wait may be enough to go. -/
def add (b : Backlog) (n : Nat) : Backlog :=
  if room ≤ b.waiting + n then ⟨0, b.arrived + b.waiting + n⟩ else ⟨b.waiting + n, b.arrived⟩

theorem total_add (b : Backlog) (n : Nat) : (b.add n).total = b.total + n := by
  unfold add total
  split <;> simp only <;> omega

theorem arrived_le_add (b : Backlog) (n : Nat) : b.arrived ≤ (b.add n).arrived := by
  unfold add
  split <;> simp only <;> omega

theorem waiting_add_lt (b : Backlog) (n : Nat) : (b.add n).waiting < room := by
  unfold add
  split
  · exact Nat.zero_lt_succ _
  · simp only; omega

end Backlog

end Stencil
