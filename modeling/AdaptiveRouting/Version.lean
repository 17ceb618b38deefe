/-!
# Version

The version of the program.
-/

namespace AdaptiveRouting

def version : String := "0.1.0"

end AdaptiveRouting
