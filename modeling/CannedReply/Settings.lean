import CannedReply.Bytes
/-!
# Settings

What a server is told at its start.
-/

namespace CannedReply

structure Settings where
  host : String := "0.0.0.0"
  port : Int := 80
  /-- The canned reply. -/
  reply : Bytes := []
  /-- The format of outcome lines: `json`, or anything else for the plain format. -/
  logFormat : String := "plain"
  /-- Whether payloads are echoed on the output. -/
  echo : Bool := true
  /-- Whether connections offer their sockets. -/
  takeover : Bool := true
  deriving DecidableEq, Repr

namespace Settings

def logsJson (s : Settings) : Bool := s.logFormat == "json"

end Settings

end CannedReply
