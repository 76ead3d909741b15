import CannedReply.Request
import CannedReply.Text.Blank
/-!
# Routes

Which handler answers which method and path. Methods and paths are compared character by
character. Main statement: `resolve?_add` says what each route answers after an addition.
-/

namespace CannedReply

/-- What makes the payload for a request. -/
abbrev Handler := Request → Bytes

namespace Handler

/-- The handler that has one payload for every request. -/
def serveReply (payload : Bytes) : Handler := fun _ => payload

/-- The payload for everything unknown. -/
def unknownPayload : Bytes := Bytes.ofText "Unknown request"

/-- Makes the payload for a request that no route matches, or for a message that is none. -/
def unknownRequest : Option Request → Bytes := fun _ => unknownPayload

end Handler

structure Routes where
  table : OrderedMap (String × String) Handler

namespace Routes

inductive Error where
  | emptyMethod
  | relativePath
  deriving DecidableEq, Repr

def Error.message : Error → String
  | emptyMethod => "method cannot be empty"
  | relativePath => "path must start with '/'"

def empty : Routes := ⟨.empty⟩

/-- Adds a route, or changes the handler of one. -/
def add (routes : Routes) (method path : String) (handler : Handler) : Except Error Routes :=
  if method.toList.all Text.isBlank then .error .emptyMethod
  else if path.toList.head? ≠ some '/' then .error .relativePath
  else .ok ⟨routes.table.insert (method, path) handler⟩

def resolve? (routes : Routes) (method path : String) : Option Handler :=
  routes.table.get? (method, path)

def size (routes : Routes) : Nat := routes.table.size

@[simp] theorem resolve?_empty (method path : String) : empty.resolve? method path = none := rfl

/-- A route that was added has its handler, and every other route the one it had. -/
theorem resolve?_add {routes routes' : Routes} {method path : String} {handler : Handler}
    (h : routes.add method path handler = .ok routes') (method' path' : String) :
    routes'.resolve? method' path' =
      if (method, path) = (method', path') then some handler
      else routes.resolve? method' path' := by
  rw [add] at h
  split at h
  · contradiction
  · split at h
    · contradiction
    · cases h
      exact OrderedMap.get?_insert routes.table (method, path) handler (method', path')

/-- The request that the canned reply answers. -/
def triggerMethod : String := "POST"

def triggerPath : String := "/v1/chat/completions"

/-- The single route of a server that is given no routes. -/
def canned (reply : Bytes) : Routes :=
  ⟨OrderedMap.empty.insert (triggerMethod, triggerPath) (.serveReply reply)⟩

theorem add_trigger (reply : Bytes) :
    empty.add triggerMethod triggerPath (.serveReply reply) = .ok (canned reply) :=
  rfl

end Routes

end CannedReply
