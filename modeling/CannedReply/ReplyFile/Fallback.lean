import CannedReply.Log
/-!
# Loading with a fallback

A reply that cannot be loaded is replaced by the empty one, and a record says which of the two is
served.
-/

namespace CannedReply.ReplyFile

/-- The reply, or an empty one with a warning. -/
def loadOrEmpty (storage : Storage) (path : String) : Except Error (Bytes × Log.Record) :=
  match load storage path with
  | .ok reply => .ok (reply, .replyLoaded reply.length path)
  | .error e => if e.isRecoverable then .ok ([], .replyMissing e) else .error e

end CannedReply.ReplyFile
