/-! The instances the library takes where more than one can be found: powers of whole numbers and
the equality of byte strings are those of the core, so that a statement means the same whatever else
is imported with it. -/

namespace ResultSink

attribute [scoped instance (high)] instPowNat instNatPowNat Int.instNatPow ByteArray.instDecidableEq

attribute [default_instance high] instPowNat

end ResultSink
