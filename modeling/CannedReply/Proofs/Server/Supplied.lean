import CannedReply.Proofs.Routes.Filling
import CannedReply.Proofs.Service.CannedRoute
/-!
# Servers with routes of their own

A server that is given a table answers by the table, unless the table is empty: then it answers by
the canned route, as if it had been given none.  Main statement: `supplied_routes_used_iff`.
-/

namespace CannedReply.Proofs.Server.Supplied

open CannedReply.Service
open CannedReply.Proofs.Routes.Filling
open CannedReply.Proofs.Service.Accounting
open CannedReply.Proofs.Service.Answers
open CannedReply.Proofs.Service.CannedRoute
open CannedReply.Proofs.Service.Turns

/-- The routes of a server that is given a filled table. -/
theorem routes_create (settings : Settings) (routes : List Route) :
    (Server.create settings (some ⟨.ofList routes⟩)).routes =
      if routes = [] then Routes.canned settings.reply else ⟨.ofList routes⟩ := by
  unfold Server.create
  dsimp only [Option.getD_some]
  simp only [size_filled_eq_zero_iff]

/-- A visit to a server that is given a table. -/
def suppliedVisit (settings : Settings) (table : Routes) (now : Int) (client : Client) : Visit :=
  serve settings (Server.create settings (some table)).routes now client

/-- The payload that a server with a table has for a request. -/
def suppliedPayload (settings : Settings) (table : Routes) (r : Request) : Bytes :=
  payloadFor (Server.create settings (some table)).routes (some r)

/-- The payload that the routes promise for a request: what the handler makes of it that was added
last for its method and path. -/
def promised (routes : List Route) (r : Request) : Bytes :=
  ((last? (r.method, r.path) routes).map fun handler => handler r).getD
    (Bytes.ofText "Unknown request")

/-- The request asks for the canned reply. -/
def AsksForReply (r : Request) : Prop :=
  (Routes.triggerMethod, Routes.triggerPath) = (r.method, r.path)

theorem suppliedPayload_of_ne_nil (settings : Settings) {routes : List Route} (h : routes ≠ [])
    (r : Request) : suppliedPayload settings ⟨.ofList routes⟩ r = promised routes r := by
  rw [suppliedPayload, routes_create, if_neg h, payloadFor_request, resolve?_filled]
  rfl

theorem suppliedPayload_of_asks (settings : Settings) {r : Request} (h : AsksForReply r) :
    suppliedPayload settings ⟨.ofList []⟩ r = settings.reply := by
  rw [suppliedPayload, routes_create, if_pos rfl, payloadFor_canned]
  exact if_pos h

theorem suppliedPayload_of_other (settings : Settings) {r : Request} (h : ¬ AsksForReply r) :
    suppliedPayload settings ⟨.ofList []⟩ r = Bytes.ofText "Unknown request" := by
  rw [suppliedPayload, routes_create, if_pos rfl, payloadFor_canned]
  exact if_neg h

/-- The promise of the routes is kept except where there are none and the request asks for the
canned reply. -/
theorem suppliedPayload_eq_promised_iff (settings : Settings) (routes : List Route) (r : Request) :
    suppliedPayload settings ⟨.ofList routes⟩ r = promised routes r ↔
      routes ≠ [] ∨ ¬ AsksForReply r ∨ settings.reply = Bytes.ofText "Unknown request" := by
  by_cases hnil : routes = []
  · subst hnil
    have hpromised : promised [] r = Bytes.ofText "Unknown request" := rfl
    by_cases hasks : AsksForReply r
    · rw [suppliedPayload_of_asks settings hasks, hpromised]
      simp [hasks]
    · rw [suppliedPayload_of_other settings hasks, hpromised]
      simp [hasks]
  · simp [suppliedPayload_of_ne_nil settings hnil, hnil]

/-- A server that is given valid routes answers by them: whoever accepts the payload of the handler
that was added last for its method and path is sent just that, and the payload for everything
unknown if there is none.  Only without any routes those who ask for the canned reply are sent that
instead. -/
theorem supplied_routes_used_iff (settings : Settings) (now : Int) (routes : List Route)
    (client : Client) (r : Request) (hvalid : ∀ route ∈ routes, IsValid route.1.1 route.1.2)
    (htakeover : settings.takeover = true) (hrequest : request? client = some r) :
    ∃ table, fill routes = .ok table ∧ (Accepts (suppliedPayload settings table r) client →
      (suppliedVisit settings table now client).fault = none ∧
        ((suppliedVisit settings table now client).socket.sent =
            client.socket.sent ++ promised routes r ↔
          routes ≠ [] ∨ ¬ AsksForReply r ∨ settings.reply = Bytes.ofText "Unknown request") ∧
        (routes = [] → AsksForReply r → (suppliedVisit settings table now client).socket.sent =
          client.socket.sent ++ settings.reply)) := by
  refine ⟨⟨.ofList routes⟩, fill_of_isValid hvalid, fun haccepts => ?_⟩
  have hanswered := serve_answered_of_request now htakeover hrequest haccepts
  have hsent : (suppliedVisit settings ⟨.ofList routes⟩ now client).socket.sent =
      client.socket.sent ++ suppliedPayload settings ⟨.ofList routes⟩ r := hanswered.sent
  refine ⟨hanswered.fault, ?_, ?_⟩
  · rw [hsent, List.append_cancel_left_eq]
    exact suppliedPayload_eq_promised_iff settings routes r
  · rintro rfl hasks
    rw [hsent, suppliedPayload_of_asks settings hasks]

/-- Routes of which the last gives the first a new handler, one that repeats the target. -/
def replacing : List Route :=
  [(("GET", "/a"), .serveReply [65]), (("GET", "/b"), .serveReply [66]),
    (("GET", "/a"), fun r => Bytes.ofText r.target)]

/-- The handler of a route is the last that it was given, and it is told the request. -/
theorem supplied_routes_used_replacing :
    ∃ table, fill replacing = .ok table ∧
      (suppliedVisit {} table 0 (clientOf (Bytes.ofText "GET /a?b HTTP/1.1\r\n\r\n"))).socket.sent =
        Bytes.ofText "/a?b" := by
  let client := clientOf (Bytes.ofText "GET /a?b HTTP/1.1\r\n\r\n")
  have hread : reading client = .ok _ := reading_clientOf (by decide) (by decide) rfl
  obtain ⟨r, hrequest, hmethod, hpath, htarget⟩ :
      ∃ r, request? client = some r ∧ r.method = "GET" ∧ r.path = "/a" ∧ r.target = "/a?b" := by
    rw [request?_of_reading hread]
    exact ⟨_, rfl, rfl, rfl, rfl⟩
  obtain ⟨table, hfill, hsends⟩ :=
    supplied_routes_used_iff {} 0 replacing client r (by decide) rfl hrequest
  refine ⟨table, hfill, ?_⟩
  have hreachable : Reachable {} client := clientOf_reachable rfl _
  have haccepts : Accepts (suppliedPayload {} table r) client :=
    accepts_of_reachable hreachable rfl _
  have hpromised : promised replacing r = Bytes.ofText r.target := by
    rw [promised, hmethod, hpath]
    rfl
  rw [(hsends haccepts).2.1.2 (.inl (by decide)), hpromised, htarget]
  rfl

/-- Without routes the canned reply is sent, for which there is no route. -/
theorem no_routes_send_the_reply :
    let client := clientOf (Bytes.ofText "POST /v1/chat/completions HTTP/1.1\r\n\r\n")
    fill [] = .ok .empty ∧ Accepts [65] client ∧
      ∃ r, request? client = some r ∧ promised [] r = Bytes.ofText "Unknown request" ∧
        (suppliedVisit { reply := [65] } .empty 0 client).socket.sent = [65] := by
  intro client
  have hreachable : Reachable {} client := clientOf_reachable rfl _
  have haccepts (payload : Bytes) : Accepts payload client :=
    accepts_of_reachable hreachable rfl payload
  have hread : reading client = .ok _ := reading_clientOf (by decide) (by decide) rfl
  obtain ⟨r, hrequest, hasks⟩ : ∃ r, request? client = some r ∧ AsksForReply r := by
    rw [request?_of_reading hread]
    exact ⟨_, rfl, rfl⟩
  refine ⟨rfl, haccepts _, r, hrequest, rfl, ?_⟩
  have hanswered : Answered (Server.create { reply := [65] } (some .empty)).routes client (some r)
      (suppliedVisit { reply := [65] } .empty 0 client) :=
    serve_answered_of_request 0 rfl hrequest (haccepts _)
  exact hanswered.sent.trans (suppliedPayload_of_asks { reply := [65] } hasks)

end CannedReply.Proofs.Server.Supplied
