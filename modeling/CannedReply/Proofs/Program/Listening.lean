import CannedReply.Program
import CannedReply.Proofs.Port
import CannedReply.Proofs.ReplyFile.Startup
import CannedReply.Proofs.Server.Turns
/-!
# What a run of the program comes to

Once its command line is understood a run only has to choose its port.  With a port and a reply it
listens, and whatever the listening ends in, the run returns.  Without room for its reply file it
breaks off before it listens.
-/

namespace CannedReply.Proofs.Program.Listening

open CannedReply.Program
open CannedReply.Proofs.Port
open CannedReply.Proofs.ReplyFile.Startup
open CannedReply.Proofs.Server.Turns

/-- The places that a run binds its listening socket to. -/
def bound (run : Run) : List ListenerCall := run.calls.filter fun c => c matches .bind ..

/-- A run that has listened. -/
structure Listened (world : World) (settings : Settings) (run : Run) : Prop where
  ending : run.ending = .returned (if Opens world.listener then 0 else 1)
  closes : run.calls.getLast? = some .close
  binds : bound run = [.bind settings.host settings.port]
  visits : run.visits = (clientsServed (.start world.listener)).map
    (Service.serve settings (Routes.canned settings.reply) world.now)

variable {world : World} {settings : Settings}

/-! ## Listening -/

theorem getLast?_calls_stop {s : Server.Session} (h : s.calls.getLast? = some .close) :
    s.stop.calls.getLast? = some .close := by
  rw [stop_eq]
  cases s.server.listening with
  | true => exact List.getLast?_concat
  | false => simpa using h

theorem binds_stop (s : Server.Session) : binds s.stop = binds s := by
  unfold binds
  rw [stop_eq, List.filter_append]
  cases s.server.listening with
  | true => simp
  | false => simp

/-- However a session ends, the run that it belongs to shows its calls and its visits. -/
theorem listened_ofSession {s s' : Server.Session} {code : Nat}
    (hs : s = (Server.create settings none).start world.now world.listener)
    (hcode : code = if Opens world.listener then 0 else 1)
    (hcloses : s'.calls.getLast? = some .close) (hbinds : binds s' = binds s)
    (hvisits : s'.visits = s.visits) (log : List Log.Record) :
    Listened world settings (ofSession (.returned code) log s') := by
  have hperformed := performed_start world.now world.listener (Server.create settings none)
  constructor
  · rw [hcode]
    rfl
  · exact hcloses
  · rw [hs, binds_start] at hbinds
    exact hbinds
  · rw [hs, hperformed.visits] at hvisits
    exact hvisits

theorem listen_listened (world : World) (settings : Settings) (log : List Log.Record) :
    Listened world settings (listen world settings log) := by
  have hcloses := getLast?_calls_start world.now world.listener (Server.create settings none)
  have hfailure := failure_start world.now world.listener (Server.create settings none)
  unfold Program.listen
  dsimp only
  generalize hs : (Server.create settings none).start world.now world.listener = s at *
  obtain ⟨hfails, e, hfailed⟩ | ⟨hopens, hnone | hinterrupted⟩ := hfailure
  · rw [hfailed]
    dsimp only
    apply listened_ofSession hs.symm (if_neg hfails).symm
    · exact hcloses
    · rfl
    · rfl
  · rw [hnone]
    exact listened_ofSession hs.symm (if_pos hopens).symm hcloses rfl rfl log
  · rw [hinterrupted]
    refine listened_ofSession hs.symm (if_pos hopens).symm (getLast?_calls_stop hcloses)
      (binds_stop s) ?_ log
    rw [stop_eq]

/-- With room for the reply file, a run with a port listens, and offers whatever reply it could
load. -/
theorem serve_listened (hstorage : Affords world.storage) (arguments : CommandLine.Arguments)
    (port : Int) : ∃ settings : Settings, settings.host = "0.0.0.0" ∧ settings.port = port ∧
      settings.takeover = true ∧
      (world.storage.reportedSize = none → StartupReply world.storage settings.reply) ∧
      Listened world settings (serve world arguments port) := by
  obtain ⟨reply, record, hload, hreply⟩ := loadOrEmpty_of_affords hstorage
  unfold serve
  rw [hload]
  exact ⟨_, rfl, rfl, rfl, hreply, listen_listened world _ _⟩

/-- Without room for the reply file, a run breaks off before it makes a call. -/
theorem serve_of_not_affords (hstorage : ¬ Affords world.storage)
    (arguments : CommandLine.Arguments) (port : Int) : ∃ e : ReplyFile.Error,
      e.isRecoverable = false ∧ serve world arguments port = { ending := .failed e.message } := by
  obtain ⟨e, hload, hbroken⟩ := loadOrEmpty_of_not_affords hstorage
  refine ⟨e, hbroken, ?_⟩
  unfold serve
  rw [hload]

/-! ## Choosing a port -/

variable {words : List String} {arguments : CommandLine.Arguments}

/-- The port that a command line asks for: the default one, or one that it spells in no more digits
than a number may have. -/
def AsksFor (arguments : CommandLine.Arguments) (port : Int) : Prop :=
  match arguments.port with
  | none => port = defaultPort
  | some text => ∃ digits, Spells text.toList digits port ∧
      digits.length ≤ Numeral.maxDecimalDigits ∧ InRange port

theorem run_of_asksFor {port : Int}
    (hparse : CommandLine.parse words = .ok (.serve arguments)) (hport : AsksFor arguments port) :
    run words world = serve world arguments port := by
  unfold run
  rw [hparse]
  dsimp only
  unfold AsksFor at hport
  cases hargument : arguments.port with
  | none =>
    rw [hargument] at hport
    rw [hport]
  | some text =>
    rw [hargument] at hport
    obtain ⟨digits, hspells, hshort, hrange⟩ := hport
    dsimp only
    rw [parse_of_spells hspells, verdict, if_neg (Nat.not_lt.2 hshort), if_pos hrange]
    dsimp only
    rw [Int.toNat_of_nonneg hrange.1]

end CannedReply.Proofs.Program.Listening
