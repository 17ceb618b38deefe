import AdaptiveRouting.Name

/-!
# Failures

What can go wrong, by cause. `ProbeFailure` covers a single probe, from its name to its frames;
`Failure` is the failure of any operation. `Failure.message` is the text that a reader gets, and
`Failure.isTransient` says whether trying again later can help.
-/

namespace AdaptiveRouting

/-- Why a probe could not be made, sent or understood. -/
inductive ProbeFailure where
  /-- The name is not that of a probe. -/
  | invalidName (name : String)
  /-- It is not known where the neighbor answers. -/
  | noRoute (neighbor : Name)
  /-- No local endpoint could be had. -/
  | bindFailed (address reason : String)
  /-- The request could not be sent. -/
  | sendFailed (reason : String)
  /-- The answer could not be received. -/
  | receiveFailed (reason : String)
  /-- A frame could not be encoded. -/
  | serialization (reason : String)
  /-- A frame could not be decoded. -/
  | deserialization (reason : String)
  /-- Nothing is running that could carry out the exchange. -/
  | noRuntime
deriving DecidableEq, Inhabited

def ProbeFailure.message : ProbeFailure → String
  | .invalidName name => "invalid probe name: " ++ name
  | .noRoute neighbor => "no route to neighbor " ++ neighbor.text
  | .bindFailed address reason => "bind failed on " ++ address ++ ": " ++ reason
  | .sendFailed reason => "send failed: " ++ reason
  | .receiveFailed reason => "receive failed: " ++ reason
  | .serialization reason => "serialization error: " ++ reason
  | .deserialization reason => "deserialization error: " ++ reason
  | .noRuntime => "no async runtime available to express probe"

/-- Why an operation failed. -/
inductive Failure where
  /-- A probe failed. -/
  | probe (cause : ProbeFailure)
  /-- The neighbor is not in the table. -/
  | neighborNotFound (neighbor : Name)
  /-- A response could not be signed. -/
  | signing (reason : String)
  /-- A configuration could not be read, written or put to use. -/
  | config (reason : String)
  /-- A configuration is not sound. -/
  | invalidConfig (reason : String)
  /-- Input or output failed. -/
  | io (reason : String)
  /-- Something else failed. -/
  | other (reason : String)
deriving DecidableEq, Inhabited

namespace Failure

def message : Failure → String
  | .probe cause => "probe error: " ++ cause.message
  | .neighborNotFound neighbor => "neighbor " ++ neighbor.text ++ " not found"
  | .signing reason => "signing failed: " ++ reason
  | .config reason => "configuration error: " ++ reason
  | .invalidConfig reason => "invalid configuration: " ++ reason
  | .io reason => "IO error: " ++ reason
  | .other reason => reason

/-- Whether trying again later can help. -/
def isTransient : Failure → Bool
  | .probe (.sendFailed _) | .probe (.receiveFailed _) | .probe (.noRoute _) | .io _ => true
  | _ => false

end Failure

end AdaptiveRouting
