import MiniATS.Cxx.Double
import MiniATS.Cxx.Time

/-!
# The platform

What the server takes from the C++ library and its host and what the model is generic in:
how a text becomes a number and a number a text, and the time zone.
-/

namespace MiniATS

/-- The library functions on numbers of type `R`, and the offset of local time from UTC. -/
structure Env (R : Type) where
  stod : Str → Option R
  ostream : R → Str
  toString : R → Str
  utcOffset : Int

/-- Exact arithmetic, in UTC. -/
def exactEnv : Env ℚ := ⟨Str.stodExact, Str.ostreamExact, Str.toStringExact, 0⟩

/-- `double`, in UTC. -/
def doubleEnv : Env Float := ⟨Str.stod, Str.ostream, Str.toString, 0⟩

end MiniATS
