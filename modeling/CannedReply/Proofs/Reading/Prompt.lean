import CannedReply.Proofs.Framing.Prefixes
import CannedReply.Proofs.Framing.Stability
import CannedReply.Proofs.Reading.Delivery
/-!
# Prompt readings

A message in order is read as it was sent, in whatever pieces it arrives and whatever follows it,
and the reader receives no more once it is there.  Main statement: `reading_of_message`.
-/

namespace CannedReply.Proofs.Reading.Prompt

open CannedReply.Framing CannedReply.Reading
open CannedReply.Proofs.Framing.ChunkGrammar
open CannedReply.Proofs.Framing.Fields
open CannedReply.Proofs.Framing.Growth
open CannedReply.Proofs.Framing.Prefixes
open CannedReply.Proofs.Framing.Stability
open CannedReply.Proofs.Reading.Delivery
open CannedReply.Proofs.Reading.Receives

/-- Receives on the socket `start` hand out the pieces one after the other and leave `s`. -/
inductive HandsOut (start : Socket) : List Bytes → Socket → Prop where
  | none : HandsOut start [] start
  | next {pieces : List Bytes} {piece : Bytes} {s s' : Socket} : HandsOut start pieces s →
      s.receive receiveLimit = (.ok piece, s') → HandsOut start (pieces ++ [piece]) s'

variable {start s s' : Socket} {message buffer rest suffix : Bytes}

theorem receives_of_handsOut {pieces : List Bytes} (h : HandsOut start pieces s) :
    s.receives = start.receives + pieces.length := by
  induction h with
  | none => rfl
  | next _ hreceive ih =>
    rw [receives_of_ok hreceive, ih, List.length_append]
    rfl

/-- What the reader holds while it waits is all that was handed out. -/
theorem handsOut_of_waits (h : Waits start buffer s) :
    ∃ pieces, HandsOut start pieces s ∧ pieces.flatten = buffer := by
  induction h with
  | first => exact ⟨[], .none, rfl⟩
  | @next buffer piece s s' _ hreceive _ _ ih =>
    obtain ⟨pieces, hpieces, rfl⟩ := ih
    exact ⟨pieces ++ [piece], .next hpieces hreceive, by simp⟩

/-- Where the reader waits for a message, it goes on to the receive that completes it. -/
theorem exists_last_receive (h : IsMessage message) (hwaits : Waits start buffer s)
    (hcarries : Carries rest s) (hstream : buffer ++ rest = message ++ suffix)
    (hshort : buffer.length < message.length) :
    ∃ buffer' last s' s'', Waits start buffer' s' ∧ s'.receive receiveLimit = (.ok last, s'') ∧
      buffer'.length < message.length ∧ message <+: buffer' ++ last ∧
      readMessage start = (.ok message, s'') := by
  induction hn : rest.length using Nat.strongRecOn generalizing rest buffer s with
  | ind n ih =>
    have hne : rest ≠ [] := by
      rintro rfl
      have hlen := congrArg List.length hstream
      simp only [List.length_append, List.length_nil] at hlen
      omega
    obtain ⟨piece, rest', s', hreceive, hpiece, -, rfl, hnext⟩ :=
      receive_of_carries hcarries hne (by decide : 0 < receiveLimit)
    rw [← List.append_assoc] at hstream
    have hbuffer : buffer ++ piece <+: message ++ suffix := ⟨rest', hstream⟩
    rcases Nat.lt_or_ge (buffer ++ piece).length message.length with hlt | hge
    · -- The message is still open, so the reader waits once more.
      have hstart : buffer ++ piece <+: message :=
        List.prefix_of_prefix_length_le hbuffer (List.prefix_append _ _) (Nat.le_of_lt hlt)
      have hverdict := message?_of_prefix h hstart hlt
      have hless : rest'.length < n := by
        have hpos := List.length_pos_iff.2 hpiece
        rw [← hn, List.length_append]
        omega
      exact ih _ hless (.next hwaits hreceive hpiece hverdict) hnext hstream hlt rfl
    · have hstart : message <+: buffer ++ piece :=
        List.prefix_of_prefix_length_le (List.prefix_append _ _) hbuffer hge
      refine ⟨buffer, piece, s, s', hwaits, hreceive, hshort, hstart, ?_⟩
      obtain ⟨more, hmore⟩ := hstart
      have hverdict := message?_grown (message?_of_isMessage h) more
      rw [readMessage_of_waits hwaits,
        readFrom_of_piece (message?_of_waits hwaits) hreceive hpiece, readFrom_eq, ← hmore,
        hverdict]

/-- The reading of `start` gives the message, and its last receive is the one that hands out the
last byte of the message. -/
def ReadsPromptly (start : Socket) (message : Bytes) : Prop :=
  ∃ pieces last s s', HandsOut start pieces s ∧ s.receive receiveLimit = (.ok last, s') ∧
    pieces.flatten.length < message.length ∧ message <+: pieces.flatten ++ last ∧
    readMessage start = (.ok message, s') ∧ s'.receives = start.receives + pieces.length + 1

theorem readsPromptly_of_carries (h : IsMessage message)
    (hcarries : Carries (message ++ suffix) start) : ReadsPromptly start message := by
  have hpos : ([] : Bytes).length < message.length := by
    obtain ⟨requestLine, fields, body, -, -, rfl⟩ := ends_of_isMessage h
    simp [Bytes.emptyLine]
  obtain ⟨buffer, last, s, s', hwaits, hreceive, hshort, hstart, hread⟩ :=
    exists_last_receive h .first hcarries rfl hpos
  obtain ⟨pieces, hpieces, rfl⟩ := handsOut_of_waits hwaits
  refine ⟨pieces, last, s, s', hpieces, hreceive, hshort, hstart, hread, ?_⟩
  rw [receives_of_ok hreceive, receives_of_handsOut hpieces]

/-- A message in order is read as it was sent, whatever follows it and however the stream is cut
into pieces, and nothing is received once its last byte is there. -/
theorem reading_of_message (h : IsMessage message) (suffix : Bytes) {pieces : List Bytes}
    (hcut : IsCutting (message ++ suffix) pieces) :
    readPieces pieces = .ok message ∧
      ReadsPromptly { arrivals := pieces.map .data } message := by
  have hprompt := readsPromptly_of_carries h (carries_of_isCutting hcut)
  refine ⟨?_, hprompt⟩
  obtain ⟨-, -, -, s', -, -, -, -, hread, -⟩ := hprompt
  rw [readPieces, hread]

/-- A size line is cut inside its line end, and the next message comes with the last piece. -/
theorem reading_of_message_in_pieces :
    readPieces [Bytes.ofText "POST / HTTP/1.1\r\nTransfer-Encoding: Chunked\r\n\r\n2\r",
        Bytes.ofText "\nok\r\n0\r\n\r\nGET"] =
      .ok (Bytes.ofText
        "POST / HTTP/1.1\r\nTransfer-Encoding: Chunked\r\n\r\n2\r\nok\r\n0\r\n\r\n") := by
  let requestLine := Bytes.ofText "POST / HTTP/1.1"
  let fields := [Bytes.ofText "Transfer-Encoding: Chunked"]
  let body := encode [⟨Bytes.ofText "ok", []⟩] [] []
  have hhead : IsHead requestLine fields := by
    refine ⟨Cut.line?_eq_none_iff.1 rfl, ?_, by decide⟩
    simpa [fields] using ⟨Cut.line?_eq_none_iff.1 rfl, by decide⟩
  have hchunks : AnnouncesChunks fields :=
    ⟨Bytes.ofText "Chunked", by decide, [], [], by decide⟩
  have hextension : IsExtension [] := ⟨.inl rfl, Cut.line?_eq_none_iff.1 rfl⟩
  have hbody : body.Formed := by
    refine formed_encode ?_ hextension (by simp)
    simpa [hextension] using by decide
  have hshort : Short body := ⟨by decide, by decide, by decide⟩
  have hmessage := IsMessage.ofChunks hhead hchunks hbody (by decide) hshort
  have hbytes : headBytes requestLine fields ++ (Bytes.emptyLine ++ body.bytes) = Bytes.ofText
      "POST / HTTP/1.1\r\nTransfer-Encoding: Chunked\r\n\r\n2\r\nok\r\n0\r\n\r\n" := by
    decide
  rw [hbytes] at hmessage
  exact (reading_of_message hmessage (Bytes.ofText "GET") ⟨by decide, by decide⟩).1

end CannedReply.Proofs.Reading.Prompt
