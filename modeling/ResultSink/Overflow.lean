/-! Arithmetic that leaves its word, kept apart from refusals: an operation either refuses, with an
error of its own, or stops at a step whose exact result does not fit. -/

namespace ResultSink

/-- The kind of arithmetic step whose exact result did not fit its word. -/
inductive Overflow where
  | product
  | sum
  deriving DecidableEq

def Overflow.message : Overflow → String
  | .product => "attempt to multiply with overflow"
  | .sum => "attempt to add with overflow"

/-- Why an operation stopped: it refused with an error of type `ε`, or a step overflowed. -/
inductive Failure (ε : Type) where
  | refused (error : ε)
  | overflow (step : Overflow)
  deriving DecidableEq

/-- The same failure with its refusal reworded. -/
def Failure.map {ε ε' : Type} (f : ε → ε') : Failure ε → Failure ε'
  | .refused e => .refused (f e)
  | .overflow s => .overflow s

end ResultSink
