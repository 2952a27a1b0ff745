import KeywordRunner.Remote.Argument
import KeywordRunner.Time.Duration

/-!
# Session.Fault — how a call to a device fails
-/

namespace KeywordRunner

inductive CallFault where
  /-- The session is closed, or its writer is gone when it is asked to close. -/
  | notConnected (deviceId : String)
  /-- The connection ended before an answer came. -/
  | connectionClosed (deviceId : String)
  | timeout (after : Duration)
  /-- The device answered that the call failed. -/
  | remoteFailure (call : String) (args : List Json)
  /-- A value that cannot be an argument; nothing was sent. -/
  | argument (fault : ArgumentFault)

namespace CallFault

/-- What a device said about a failure: texts as they are, other values as JSON. -/
def diagnosticText : Json → String
  | .str s => s
  | j => j.compact

def message : CallFault → String
  | .notConnected id => "Device " ++ id ++ " is not connected"
  | .connectionClosed id => "Connection to device " ++ id ++ " closed while waiting for a response"
  | .timeout d => "RPC call timeout after " ++ d.text
  | .remoteFailure call args =>
    "Remote call " ++ call ++ " failed: " ++ String.intercalate ", " (args.map diagnosticText)
  | .argument fault => "Argument error: " ++ fault.message

def isTimeout : CallFault → Bool
  | .timeout _ => true
  | _ => false

end CallFault

end KeywordRunner
