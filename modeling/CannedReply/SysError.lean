/-!
# System errors

What the operating system reports: an error number and a text.
-/

namespace CannedReply

structure SysError where
  code : Int
  text : String
  deriving DecidableEq, Repr

namespace SysError

def message (e : SysError) : String := "[Errno " ++ toString e.code ++ "] " ++ e.text

/-- A connection that timed out counts as a peer that is late, not as one that is lost. -/
def isTimeout (e : SysError) : Bool := e.code == 110

def badDescriptor : SysError := ⟨9, "Bad file descriptor"⟩

def notFound : SysError := ⟨2, "No such file or directory"⟩

def notDirectory : SysError := ⟨20, "Not a directory"⟩

def isDirectory : SysError := ⟨21, "Is a directory"⟩

def nameTooLong : SysError := ⟨36, "File name too long"⟩

def valueTooLarge : SysError := ⟨75, "Value too large for defined data type"⟩

end SysError

end CannedReply
