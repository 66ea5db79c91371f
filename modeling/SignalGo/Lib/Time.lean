import Mathlib

/-!
# Times of the standard library

`time.Time` without its location and monotonic clock reading: a number of whole seconds since the
zero time, January 1 of the year 1, and the nanoseconds behind them. Unix seconds count from another
origin; both counts wrap around at 64 bits, so that every 64-bit number is the Unix time of exactly
one whole second.
-/

namespace SignalGo

structure Time where
  sec : Int64
  nsec : Fin 1000000000
  deriving DecidableEq

/-- `time.Duration`, in nanoseconds. -/
abbrev Duration := Int64

namespace Time

/-- The zero `time.Time`. -/
def zero : Time := ⟨0, 0⟩

def isZero (t : Time) : Bool := t = zero

/-- Seconds from the zero time to January 1, 1970. -/
def unixToInternal : Int64 := 62135596800

/-- `t.Unix()`. -/
def unix (t : Time) : Int64 := t.sec - unixToInternal

/-- `time.Unix(sec, 0)`. -/
def ofUnix (sec : Int64) : Time := ⟨sec + unixToInternal, 0⟩

/-- Nanoseconds since the zero time, without a limit. -/
def nanos (t : Time) : Int := t.sec.toInt * 1000000000 + (t.nsec.val : Int)

/-- `t.Before(u)`. -/
def before (t u : Time) : Bool := t.nanos < u.nanos

/-- `t.Sub(u)`: the difference, or the largest or smallest duration when it has no room. -/
def sub (t u : Time) : Int := max (-2 ^ 63) (min (t.nanos - u.nanos) (2 ^ 63 - 1))

@[simp] theorem unix_ofUnix (sec : Int64) : (ofUnix sec).unix = sec :=
  Int64.add_sub_cancel sec unixToInternal

/-- A time of whole seconds is known from its Unix time. -/
theorem ofUnix_unix {t : Time} (h : t.nsec = 0) : ofUnix t.unix = t := by
  rw [ofUnix, unix, Int64.sub_add_cancel, ← h]

@[simp] theorem isZero_iff {t : Time} : t.isZero = true ↔ t = zero := decide_eq_true_iff

/-- A duration never tells a difference that is too large from a larger one. -/
theorem le_sub_iff {t u : Time} (d : Duration) (hpos : 0 < d.toInt) :
    d.toInt ≤ t.sub u ↔ u.nanos + d.toInt ≤ t.nanos := by
  have hmax := d.toInt_lt
  unfold sub
  omega

end Time

end SignalGo
