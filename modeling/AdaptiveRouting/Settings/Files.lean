import AdaptiveRouting.Failure
import AdaptiveRouting.HostFault
import AdaptiveRouting.Settings.Decoding
import AdaptiveRouting.Settings.Encoding

/-!
# Settings and files

Configurations live in files, and logs go to files. The host opens, reads and writes them; here
is what becomes of its answer.
-/

namespace AdaptiveRouting

/-- The configuration in a file that the host has tried to read. -/
def Settings.load (content : Except HostFault String) : Except Failure (Settings Float) :=
  match content with
  | .error fault => .error (.config ("Failed to read config: " ++ fault.message))
  | .ok text =>
    match Settings.parse text with
    | .error fault => .error fault.failure
    | .ok settings => .ok settings

/-- Logging into a file that the host has tried to open. -/
def LogSettings.openFile (opened : Except HostFault Unit) : Except Failure Unit :=
  match opened with
  | .error fault => .error (.config ("Failed to open log file: " ++ fault.message))
  | .ok () => .ok ()

end AdaptiveRouting
