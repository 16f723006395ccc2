import KernelCensus.Text.Basic

/-!
# The version of the library
-/

namespace KernelCensus

/-- The version of the library and of its command line. -/
def version : Text := "0.1.0"

end KernelCensus
