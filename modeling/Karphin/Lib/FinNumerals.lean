import Mathlib

/-!
The bounds of the small index types, so that `0 : Fin 32` and the like mean the
same term in every module.
-/

namespace Karphin.Lib

instance neZeroTwo : NeZero 2 := ⟨by decide⟩

instance neZeroFour : NeZero 4 := ⟨by decide⟩

instance neZeroEight : NeZero 8 := ⟨by decide⟩

instance neZeroThirtyTwo : NeZero 32 := ⟨by decide⟩

end Karphin.Lib
