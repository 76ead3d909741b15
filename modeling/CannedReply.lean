import CannedReply.Main
import CannedReply.Proofs.Cut
import CannedReply.Proofs.Reading.Receives
import CannedReply.Proofs.Reading.Delivery
import CannedReply.Proofs.Reading.Segmentation
import CannedReply.Proofs.Connection.Turns
import CannedReply.Proofs.Service.CannedRoute
import CannedReply.Proofs.Service.Refusal
import CannedReply.Proofs.Request.Agreement
import CannedReply.Proofs.Server.History
import CannedReply.Proofs.Framing.ChunkGrammar
import CannedReply.Proofs.Framing.Stability
import CannedReply.Proofs.Framing.Fields
import CannedReply.Proofs.Framing.Prefixes
import CannedReply.Proofs.Reading.Prompt
import CannedReply.Proofs.Connection.Lifecycle
import CannedReply.Proofs.Response.Framed
import CannedReply.Proofs.Framing.TrailerLimit
import CannedReply.Proofs.Program.PortArgument
import CannedReply.Proofs.Program.Account
import CannedReply.Proofs.Target.BothForms
import CannedReply.Proofs.Request.AsWritten
import CannedReply.Proofs.Server.Supplied
import CannedReply.Proofs.Reading.Bounds
import CannedReply.Proofs.Framing.HeadLimit
import CannedReply.Proofs.Routes.History
import CannedReply.Proofs.Server.Leftovers
import CannedReply.Proofs.Response.Spellings
import CannedReply.Proofs.ReplyFile.Exact
import CannedReply.Proofs.Framing.Unrelated
import CannedReply.Proofs.Service.Presentation
import CannedReply.Proofs.Service.PlainLine
import CannedReply.Proofs.Text.Json
import CannedReply.Proofs.Text.JsonString
import CannedReply.Proofs.Decimal
import CannedReply.Proofs.Text.JsonNumber
import CannedReply.Proofs.Service.JsonLine
