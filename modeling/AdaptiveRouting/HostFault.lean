/-!
# Faults of the host

Files and sockets belong to the host, which may be unable to do what it is asked for. A fault has
a number and is reported in words together with it.
-/

namespace AdaptiveRouting

/-- Why the host could not do what it was asked for. -/
inductive HostFault where
  /-- There is no such file or directory. -/
  | notFound
  /-- There is no way to the network. -/
  | networkUnreachable
deriving DecidableEq

/-- The number of a fault. -/
def HostFault.code : HostFault → Nat
  | .notFound => 2
  | .networkUnreachable => 101

/-- The fault in words. -/
def HostFault.reason : HostFault → String
  | .notFound => "No such file or directory"
  | .networkUnreachable => "Network is unreachable"

def HostFault.message (f : HostFault) : String :=
  f.reason ++ " (os error " ++ toString f.code ++ ")"

end AdaptiveRouting
