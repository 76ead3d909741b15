import CannedReply.Proofs.Latin1
import CannedReply.Proofs.Service.Answers
import CannedReply.Proofs.Target.Forms
import CannedReply.Server
/-!
# Who is sent the canned reply

A server without routes of its own sends its reply to those who post to one path, and to nobody
else.  Main statement: `canned_reply_iff_trigger`, which says byte by byte what such a request is.
-/

namespace CannedReply.Proofs.Service.CannedRoute

open CannedReply.Service
open CannedReply.Proofs.Cut
open CannedReply.Proofs.Latin1
open CannedReply.Proofs.Request.Head
open CannedReply.Proofs.Service.Accounting
open CannedReply.Proofs.Service.Answers
open CannedReply.Proofs.Service.Turns
open CannedReply.Proofs.Target.Forms

/-- The targets that lead to the canned reply: its path, with or without a query, and an absolute
form with that path. -/
def LeadsToReply (target : Bytes) : Prop :=
  target = Bytes.ofText Routes.triggerPath ∨
    (∃ query, target = Bytes.ofText Routes.triggerPath ++ 63 :: query) ∨
    ∃ scheme authority query,
      AbsoluteForm target scheme authority (Bytes.ofText Routes.triggerPath) query

/-- A message that asks for the canned reply. -/
def Trigger (message : Bytes) : Prop :=
  ∃ target version fieldLines,
    headLines message =
      (Bytes.ofText "POST" ++ 32 :: (target ++ 32 :: Bytes.ofText version)) :: fieldLines ∧
    (version = "HTTP/1.0" ∨ version = "HTTP/1.1") ∧
    32 ∉ target ∧ 1 ≤ target.length ∧ target.length ≤ 8192 ∧
    (∀ line ∈ fieldLines, line ≠ [] → IsFieldLine line) ∧ LeadsToReply target

/-! ## The target -/

theorem beforeQuery_triggerPath (query : Bytes) :
    Target.beforeQuery (Bytes.ofText Routes.triggerPath ++ 63 :: query) =
      Bytes.ofText Routes.triggerPath :=
  before_singleton_eq_iff.2 ⟨by decide, .inr ⟨query, rfl⟩⟩

private theorem map_eq_ok_iff {ε α β : Type} {x : Except ε α} {f : α → β} {b : β} :
    x.map f = .ok b ↔ ∃ a, x = .ok a ∧ f a = b := by
  cases x <;> simp [Except.map]

theorem leadsToReply_of_path {target : Bytes}
    (h : Target.path target = .ok (Bytes.ofText Routes.triggerPath)) : LeadsToReply target := by
  obtain ⟨-, hpath⟩ | ⟨-, ⟨scheme, authority, path, query, hform, hpath⟩ | hpath⟩ := path_cases h
  · obtain ⟨-, hwhole | hquery⟩ := before_singleton_eq_iff.1 hpath.symm
    · exact .inl hwhole
    · exact .inr (.inl hquery)
  · split at hpath
    · exact absurd hpath (by decide)
    · exact .inr (.inr ⟨scheme, authority, query, hpath ▸ hform⟩)
  · exact .inl hpath.symm

theorem path_of_leadsToReply {target : Bytes} (hpath : ∀ e, Target.path target ≠ .error e)
    (h : LeadsToReply target) :
    Target.path target = .ok (Bytes.ofText Routes.triggerPath) := by
  obtain rfl | ⟨query, rfl⟩ | ⟨scheme, authority, query, hform⟩ := h
  · rfl
  · exact (path_of_slash rfl).trans (congrArg Except.ok (beforeQuery_triggerPath query))
  · cases hresult : Target.path target with
    | error e => exact absurd hresult (hpath e)
    | ok path =>
      rw [hform.path_eq, map_eq_ok_iff] at hresult
      obtain ⟨-, -, hsame⟩ := hresult
      rw [← hsame, if_neg (by decide)]

/-! ## The request -/

theorem resolve?_canned (reply : Bytes) (method path : String) :
    (Routes.canned reply).resolve? method path =
      if (Routes.triggerMethod, Routes.triggerPath) = (method, path) then
        some (Handler.serveReply reply)
      else none := by
  rw [Routes.resolve?_add (Routes.add_trigger reply), Routes.resolve?_empty]

theorem routed?_canned (reply : Bytes) (r : Request) :
    routed? (Routes.canned reply) (some r) =
      if (Routes.triggerMethod, Routes.triggerPath) = (r.method, r.path) then some reply
      else none := by
  unfold routed?
  rw [Option.bind_some, resolve?_canned]
  split <;> rfl

theorem payloadFor_canned (reply : Bytes) (r : Request) :
    payloadFor (Routes.canned reply) (some r) =
      if (Routes.triggerMethod, Routes.triggerPath) = (r.method, r.path) then reply
      else Handler.unknownPayload := by
  unfold payloadFor
  rw [routed?_canned]
  split <;> rfl

theorem decode_triggerMethod : Latin1.decode (Bytes.ofText "POST") = Routes.triggerMethod :=
  rfl

theorem decode_triggerPath :
    Latin1.decode (Bytes.ofText Routes.triggerPath) = Routes.triggerPath :=
  rfl

/-- A message asks for the canned reply just if its request line, its target and its field lines
all say so. -/
theorem trigger_iff {message : Bytes} :
    Trigger message ↔ ∃ parts fieldLines, HasRequestLine message parts fieldLines ∧
      parts.method = Bytes.ofText "POST" ∧ LeadsToReply parts.target ∧
      ∀ line ∈ fieldLines, line ≠ [] → IsFieldLine line := by
  constructor
  · rintro ⟨target, version, fieldLines, hlines, hversion, hspace, hpos, hshort, hfields, hleads⟩
    obtain ⟨version, rfl⟩ : ∃ v : Version, version = v.text := by
      obtain rfl | rfl := hversion
      · exact ⟨.http10, rfl⟩
      · exact ⟨.http11, rfl⟩
    refine ⟨⟨Bytes.ofText "POST", target, version⟩, fieldLines, ⟨_, hlines, rfl, ?_, ?_, hshort⟩,
      rfl, hleads, hfields⟩
    · exact (by decide : Bytes.ofText "POST" ≠ [] ∧ 32 ∉ Bytes.ofText "POST")
    · exact ⟨List.length_pos_iff.1 hpos, hspace⟩
  · rintro ⟨parts, fieldLines, ⟨first, hlines, hline⟩, hmethod, hleads, hfields⟩
    refine ⟨parts.target, parts.version.text, fieldLines, ?_, ?_, hline.target.2,
      List.length_pos_iff.2 hline.target.1, hline.short, hfields, hleads⟩
    · rw [hlines, hline.spelled, hmethod]
    · cases parts.version
      · exact .inl rfl
      · exact .inr rfl

theorem routed?_of_trigger {message : Bytes} (reply : Bytes)
    (hparse : ∀ e, Request.parse message ≠ .error (.target e)) (h : Trigger message) :
    routed? (Routes.canned reply) ((Request.parse message).toOption) = some reply := by
  obtain ⟨parts, fieldLines, hline, hmethod, hleads, hfields⟩ := trigger_iff.1 h
  have hpath : ∀ e, Target.path parts.target ≠ .error e := fun e he =>
    hparse e (parse_eq_target_iff.2 ⟨parts, fieldLines, hline, he⟩)
  obtain ⟨fields, hread⟩ := (readFields_isOk_iff .empty).2 hfields
  rw [parse_of_requestLine hline, path_of_leadsToReply hpath hleads, hread]
  dsimp only [Except.toOption]
  rw [routed?_canned, hmethod, decode_triggerMethod, decode_triggerPath, if_pos rfl]

theorem trigger_of_routed? {message : Bytes} {reply payload : Bytes}
    (h : routed? (Routes.canned reply) ((Request.parse message).toOption) = some payload) :
    Trigger message := by
  by_cases hline : ∃ parts fieldLines, HasRequestLine message parts fieldLines
  · obtain ⟨parts, fieldLines, hline⟩ := hline
    rw [parse_of_requestLine hline] at h
    cases hpath : Target.path parts.target with
    | error e =>
      rw [hpath] at h
      contradiction
    | ok path =>
      cases hread : Request.readFields .empty fieldLines with
      | error e =>
        rw [hpath, hread] at h
        contradiction
      | ok fields =>
        rw [hpath, hread] at h
        dsimp only [Except.toOption] at h
        rw [routed?_canned] at h
        split at h
        · rename_i hkey
          obtain ⟨hmethod, hroute⟩ := Prod.mk.inj hkey
          rw [← decode_triggerMethod, decode_inj] at hmethod
          rw [← decode_triggerPath, decode_inj] at hroute
          exact trigger_iff.2 ⟨parts, fieldLines, hline, hmethod.symm,
            leadsToReply_of_path (hroute ▸ hpath), (readFields_isOk_iff .empty).1 ⟨fields, hread⟩⟩
        · contradiction
  · obtain ⟨e, he⟩ := parse_of_no_requestLine message
      fun parts fieldLines hhas => hline ⟨parts, fieldLines, hhas⟩
    rw [he] at h
    contradiction

/-! ## The visit -/

/-- A visit to a server without routes of its own. -/
def cannedVisit (settings : Settings) (now : Int) (client : Client) : Visit :=
  serve settings (Server.create settings none).routes now client

variable {settings : Settings} {client : Client} {message : Bytes}

theorem cannedVisit_answered (now : Int) (hclient : Reachable settings client)
    (hread : reading client = .ok message) (hne : message ≠ [])
    (hparse : ∀ e, Request.parse message ≠ .error (.target e)) :
    Answered (Routes.canned settings.reply) client (Request.parse message).toOption
      (cannedVisit settings now client) := by
  rw [← request?_of_reading hread]
  exact serve_answered _ now hclient (speaks_of_message hread hne hparse)

/-- The canned reply goes to those who ask for it in the one way there is, and to nobody else:
every other message is answered alike, whatever the reply of the server. -/
theorem canned_reply_iff_trigger (settings : Settings) (now : Int) (client : Client)
    (message : Bytes) (hclient : Reachable settings client)
    (hread : reading client = .ok message) (hne : message ≠ [])
    (hparse : ∀ e, Request.parse message ≠ .error (.target e)) :
    (cannedVisit settings now client).fault = none ∧
      (outcomes (cannedVisit settings now client) = [.reply] ↔ Trigger message) ∧
      (Trigger message → (cannedVisit settings now client).socket.sent =
        client.socket.sent ++ settings.reply) ∧
      (¬ Trigger message →
        outcomes (cannedVisit settings now client) = [.unknown] ∧
        (cannedVisit settings now client).socket.sent =
          client.socket.sent ++ Bytes.ofText "Unknown request" ∧
        ∀ settings' now', settings'.takeover = true →
          (cannedVisit settings' now' client).socket.sent =
            (cannedVisit settings now client).socket.sent) := by
  have hanswered := cannedVisit_answered now hclient hread hne hparse
  have hmiss (reply : Bytes) (hnot : ¬ Trigger message) :
      routed? (Routes.canned reply) ((Request.parse message).toOption) = none :=
    Option.eq_none_iff_forall_ne_some.2 fun payload hrouted => hnot (trigger_of_routed? hrouted)
  have hunknown (hnot : ¬ Trigger message) {settings' : Settings} (now' : Int)
      (hclient' : Reachable settings' client) :
      (cannedVisit settings' now' client).socket.sent =
        client.socket.sent ++ Bytes.ofText "Unknown request" := by
    rw [(cannedVisit_answered now' hclient' hread hne hparse).sent]
    unfold payloadFor
    rw [hmiss settings'.reply hnot]
    rfl
  refine ⟨hanswered.fault, ⟨fun hreply => ?_, fun htrigger => ?_⟩, fun htrigger => ?_,
    fun hnot => ⟨?_, ?_, ?_⟩⟩
  · by_contra hnot
    rw [hanswered.outcomes, hmiss settings.reply hnot] at hreply
    contradiction
  · rw [hanswered.outcomes, routed?_of_trigger settings.reply hparse htrigger]
    rfl
  · rw [hanswered.sent]
    unfold payloadFor
    rw [routed?_of_trigger settings.reply hparse htrigger]
    rfl
  · rw [hanswered.outcomes, hmiss settings.reply hnot]
    rfl
  · exact hunknown hnot now hclient
  · intro settings' now' htakeover
    rw [hunknown hnot now hclient,
      hunknown hnot now' ⟨htakeover, hclient.peer, hclient.send⟩]

theorem canned_reply_to_absolute_form :
    (cannedVisit { reply := [65] } 0
      (clientOf (Bytes.ofText
        "POST http://mock/v1/chat/completions?n=1 HTTP/1.1\r\nHost: mock\r\n\r\n"))).socket.sent =
      [65] := by
  let message := Bytes.ofText
    "POST http://mock/v1/chat/completions?n=1 HTTP/1.1\r\nHost: mock\r\n\r\n"
  have hread : reading (clientOf message) = .ok message :=
    reading_clientOf (by decide) (by decide) rfl
  have hrouted : routed? (Routes.canned [65]) ((Request.parse message).toOption) =
      some [65] :=
    rfl
  have htrigger : Trigger message := trigger_of_routed? hrouted
  have hparse (e : Target.Error) : Request.parse message ≠ .error (.target e) := by
    intro he
    contradiction
  exact (canned_reply_iff_trigger { reply := [65] } 0 (clientOf message) message
    (clientOf_reachable rfl message) hread (by decide) hparse).2.2.1 htrigger

end CannedReply.Proofs.Service.CannedRoute
