/-! Lengths of time, exact to the nanosecond and without an upper bound. -/

namespace RegisterMachine

structure Duration where
  nanoseconds : Nat
  deriving DecidableEq, Repr

namespace Duration

def ofMicroseconds (n : Nat) : Duration := ⟨n * 1000⟩

def ofMilliseconds (n : Nat) : Duration := ⟨n * 1000000⟩

def microseconds (d : Duration) : Nat := d.nanoseconds / 1000

/-- Whole milliseconds, rounded down. -/
def milliseconds (d : Duration) : Nat := d.nanoseconds / 1000000

def exceeds (d limit : Duration) : Bool := limit.nanoseconds < d.nanoseconds

end Duration

end RegisterMachine
