import CannedReply.Proofs.Program.Listening
import CannedReply.Proofs.Service.CannedRoute
/-!
# The account of a run

A run that is told a port returns, and its exit code says whether its listening socket opened.  It
closes that socket last, and all clients that it accepts are offered the same reply, the one that
it found at startup.  Only a reply file for which there is no room makes it break off.  Main
statement: `run_accounted_iff`.
-/

namespace CannedReply.Proofs.Program.Account

open CannedReply.Program CannedReply.Service
open CannedReply.Proofs.Program.Listening
open CannedReply.Proofs.ReplyFile.Startup
open CannedReply.Proofs.Server.Turns
open CannedReply.Proofs.Service.Accounting
open CannedReply.Proofs.Service.Answers
open CannedReply.Proofs.Service.CannedRoute
open CannedReply.Proofs.Service.Turns

/-! ## Clients that select the canned route -/

/-- The client sends a request for the canned route. -/
def SelectsReply (client : Client) : Prop :=
  ∃ request, request? client = some request ∧ request.method = Routes.triggerMethod ∧
    request.path = Routes.triggerPath

variable {settings : Settings} {client : Client}

/-- Whoever selects the canned route and accepts the reply is sent just that. -/
theorem sent_of_selectsReply (htakeover : settings.takeover = true) (now : Int)
    (hselects : SelectsReply client) (haccepts : Accepts settings.reply client) :
    (serve settings (Routes.canned settings.reply) now client).socket.sent =
      client.socket.sent ++ settings.reply := by
  obtain ⟨request, hrequest, hmethod, hpath⟩ := hselects
  have hpayload : payloadFor (Routes.canned settings.reply) (some request) =
      settings.reply := by
    rw [payloadFor_canned, hmethod, hpath, if_pos rfl]
  rw [(serve_answered_of_request now htakeover hrequest (hpayload.symm ▸ haccepts)).sent, hpayload]

/-! ## Runs -/

/-- The clients that a run accepts. -/
def accepted (world : World) : List Client := clientsServed (.start world.listener)

/-- The client has been sent the reply, if it asked for it and could be sent anything. -/
def SentReply (reply : Bytes) (client : Client) (visit : Visit) : Prop :=
  SelectsReply client → Accepts reply client → visit.socket.sent = client.socket.sent ++ reply

/-- What a run accounts for whose command line has been accepted. -/
structure Accounted (world : World) (run : Run) : Prop where
  ending : run.ending = .returned (if Opens world.listener then 0 else 1)
  closes : run.calls.getLast? = some .close
  replies : ∃ reply, StartupReply world.storage reply ∧
    List.Forall₂ (SentReply reply) (accepted world) run.visits

variable {words : List String} {arguments : CommandLine.Arguments} {port : Int} {world : World}

theorem accounted_of_affords (hparse : CommandLine.parse words = .ok (.serve arguments))
    (hport : AsksFor arguments port) (htrue : world.storage.reportedSize = none)
    (hstorage : Affords world.storage) : Accounted world (run words world) := by
  rw [run_of_asksFor hparse hport]
  obtain ⟨settings, -, -, htakeover, hreply, hlistened⟩ := serve_listened hstorage arguments port
  refine ⟨hlistened.ending, hlistened.closes, settings.reply, hreply htrue, ?_⟩
  rw [hlistened.visits, accepted, List.forall₂_map_right_iff, List.forall₂_same]
  intro client _ hselects haccepts
  exact sent_of_selectsReply htakeover world.now hselects haccepts

/-- However its listening and accepting go, a run with a port returns, with code 1 just if its
listening socket does not open; it closes that socket last; and it has one reply for all who select
it, which is what the reply file held when the run started.  All that just if there is room for the
reply file: without it the run breaks off before it listens. -/
theorem run_accounted_iff (hparse : CommandLine.parse words = .ok (.serve arguments))
    (hport : AsksFor arguments port) (htrue : world.storage.reportedSize = none) :
    (Accounted world (run words world) ↔ Affords world.storage) ∧
      (¬ Affords world.storage → ∃ e : ReplyFile.Error, e.isRecoverable = false ∧
        run words world = { ending := .failed e.message }) := by
  have hbreaks (hstorage : ¬ Affords world.storage) : ∃ e : ReplyFile.Error,
      e.isRecoverable = false ∧ run words world = { ending := .failed e.message } := by
    rw [run_of_asksFor hparse hport]
    exact serve_of_not_affords hstorage arguments port
  refine ⟨⟨fun haccounted => ?_, accounted_of_affords hparse hport htrue⟩, hbreaks⟩
  by_contra hstorage
  obtain ⟨e, -, hrun⟩ := hbreaks hstorage
  have hending := haccounted.ending
  rw [hrun] at hending
  contradiction

/-- A reply file, and a listening socket that is interrupted after its first client. -/
def brief : World where
  storage := { tree := { entries := [(["reply.txt"], .file (Bytes.ofText "ok"))] } }
  listener := { events := [.timeout, .client poster, .interrupt, .client poster] }

theorem openFile_brief : brief.storage.openFile (FilePath.ofText ReplyFile.defaultPath) =
    .ok (Bytes.ofText "ok") := by
  decide

theorem affords_brief : Affords brief.storage := by
  intro content hopen hsized
  obtain rfl := Except.ok.inj (openFile_brief.symm.trans hopen)
  exact ⟨2, ⟨hopen, hsized, rfl⟩, by decide, by decide⟩

theorem selectsReply_poster : SelectsReply poster := by
  unfold SelectsReply
  rw [request?_of_reading reading_poster]
  exact ⟨_, rfl, rfl, rfl⟩

theorem run_accounted_iff_brief :
    (run ["--quiet", "-0"] brief).ending = .returned 0 ∧
      (run ["--quiet", "-0"] brief).calls.getLast? = some .close ∧
      ∃ visit, (run ["--quiet", "-0"] brief).visits = [visit] ∧
        visit.socket.sent = Bytes.ofText "ok" := by
  have hparse : CommandLine.parse ["--quiet", "-0"] =
      .ok (.serve { port := some "-0", quiet := true }) := by
    decide
  have hport : AsksFor { port := some "-0", quiet := true } 0 :=
    ⟨['0'], .minus ⟨by decide, by decide⟩, by decide, by decide⟩
  obtain ⟨hending, hcloses, reply, hreply, hall⟩ :=
    (run_accounted_iff hparse hport rfl).1.2 affords_brief
  have hload := hreply.readable _ openFile_brief rfl fun _ => ⟨_, rfl⟩
  obtain rfl := (hreply.loaded _ hload).2
  refine ⟨hending, hcloses, ?_⟩
  have haccepted : accepted brief = [poster] := rfl
  rw [haccepted] at hall
  generalize (run ["--quiet", "-0"] brief).visits = visits at hall
  cases hall with
  | cons hsent hrest =>
    cases hrest
    exact ⟨_, rfl, hsent selectsReply_poster ⟨rfl, _, rfl⟩⟩

/-- A reply file of five bytes, and memory for four. -/
def cramped : World where
  storage :=
    { tree := { entries := [(["reply.txt"], .file (Bytes.ofText "short"))] }
      memory := 4 }
  listener := { events := [.client poster, .interrupt] }

/-- A run without any arguments that has no memory for its reply file does not return. -/
theorem cramped_run_breaks_off :
    CommandLine.parse [] = .ok (.serve {}) ∧ AsksFor {} 80 ∧
      cramped.storage.reportedSize = none ∧ Opens cramped.listener ∧
      run [] cramped = { ending := .failed "" } ∧ ¬ Accounted cramped (run [] cramped) := by
  have hrun : run [] cramped = { ending := .failed "" } := rfl
  refine ⟨by decide, rfl, rfl, ⟨rfl, rfl⟩, hrun, fun haccounted => ?_⟩
  have hending := haccounted.ending
  rw [hrun] at hending
  contradiction

end CannedReply.Proofs.Program.Account
