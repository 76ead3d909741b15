import CannedReply.Proofs.Reading.Receives
/-!
# Streams that arrive in pieces

A socket that only delivers: every receive hands out a piece of what is left, until nothing is.
One turn of the reader on such a socket answers, or ends, or goes on with a longer buffer.
-/

namespace CannedReply.Proofs.Reading.Delivery

open CannedReply.Framing CannedReply.Reading
open CannedReply.Proofs.Reading.Receives

/-! ## Sockets that only deliver -/

/-- On the open socket the pieces will arrive one after the other, and then the end of the
stream. -/
structure Delivers (pieces : List Bytes) (s : Socket) : Prop where
  opened : s.closed = false
  arrivals : s.arrivals = pieces.map .data
  nonempty : ∀ piece ∈ pieces, piece ≠ []

/-- Just the bytes in `rest` will be received from the socket. -/
def Carries (rest : Bytes) (s : Socket) : Prop :=
  ∃ pieces, Delivers pieces s ∧ rest = s.pending ++ pieces.flatten

theorem receive_of_carries_nil {s : Socket} (h : Carries [] s) (limit : Nat) :
    ∃ s', s.receive limit = (.ok [], s') := by
  obtain ⟨pieces, hdelivers, hrest⟩ := h
  obtain ⟨hpending, hflatten⟩ := List.append_eq_nil_iff.1 hrest.symm
  cases pieces with
  | nil => simp [Socket.receive, hdelivers.opened, hdelivers.arrivals, hpending]
  | cons piece pieces =>
    have hpiece := hdelivers.nonempty piece (by simp)
    simp [hpiece] at hflatten

theorem receive_of_delivers {first : Bytes} {pieces : List Bytes} {s : Socket}
    (h : Delivers (first :: pieces) s) (hpending : s.pending = []) (limit : Nat) :
    ∃ s', s.receive limit = (.ok (first.take limit), s') ∧ Delivers pieces s' ∧
      s'.pending = first.drop limit := by
  unfold Socket.receive
  simp only [h.opened, hpending, h.arrivals, List.map_cons, Socket.takePending]
  exact ⟨_, rfl, ⟨rfl, rfl, fun piece hpiece => h.nonempty piece (by simp [hpiece])⟩, rfl⟩

/-- A piece that a receive can hold is received as it is. -/
theorem receive_whole {first : Bytes} {pieces : List Bytes} {s : Socket}
    (h : Delivers (first :: pieces) s) (hpending : s.pending = [])
    (hle : first.length ≤ receiveLimit) :
    ∃ s', s.receive receiveLimit = (.ok first, s') ∧ Delivers pieces s' ∧ s'.pending = [] := by
  have hreceive := receive_of_delivers h hpending receiveLimit
  rwa [List.take_of_length_le hle, List.drop_eq_nil_of_le hle] at hreceive

theorem receive_of_carries {rest : Bytes} {s : Socket} (h : Carries rest s) (hne : rest ≠ [])
    {limit : Nat} (hlimit : 0 < limit) :
    ∃ piece rest' s', s.receive limit = (.ok piece, s') ∧ piece ≠ [] ∧ piece.length ≤ limit ∧
      rest = piece ++ rest' ∧ Carries rest' s' := by
  obtain ⟨pieces, hdelivers, hrest⟩ := h
  cases hpending : s.pending with
  | cons b bs =>
    refine ⟨(b :: bs).take limit, (b :: bs).drop limit ++ pieces.flatten, ?_⟩
    refine ⟨{ s with receives := s.receives + 1, pending := (b :: bs).drop limit }, ?_⟩
    refine ⟨?_, ?_, List.length_take_le _ _, ?_, ?_⟩
    · simp [Socket.receive, Socket.takePending, hdelivers.opened, hpending]
    · simp only [ne_eq, List.take_eq_nil_iff, reduceCtorEq, or_false]
      omega
    · rw [hrest, hpending, ← List.append_assoc, List.take_append_drop]
    · exact ⟨pieces, ⟨hdelivers.opened, hdelivers.arrivals, hdelivers.nonempty⟩, rfl⟩
  | nil =>
    cases pieces with
    | nil => simp [hrest, hpending] at hne
    | cons first pieces =>
      obtain ⟨s', hreceive, hnext, hleft⟩ := receive_of_delivers hdelivers hpending limit
      have hfirst := hdelivers.nonempty first (by simp)
      refine ⟨first.take limit, first.drop limit ++ pieces.flatten, s', hreceive, ?_,
        List.length_take_le _ _, ?_, pieces, hnext, by rw [hleft]⟩
      · simp only [ne_eq, List.take_eq_nil_iff, hfirst, or_false]
        omega
      · rw [hrest, hpending, List.nil_append, List.flatten_cons, ← List.append_assoc,
          List.take_append_drop]

/-! ## One turn -/

/-- What the reader answers when a verdict ends its reading. -/
def answer? : Except Framing.Error (Option Bytes) → Option (Except Reading.Error Bytes)
  | .error e => some (.error (.framing e))
  | .ok found => found.map .ok

/-- What the reader makes of a buffer behind which nothing more arrives. -/
def conclude (buffer : Bytes) : Except Reading.Error Bytes :=
  (answer? (message? buffer)).getD (if buffer.isEmpty then .ok [] else .error .endedEarly)

/-- A turn answers, or comes to the end of the stream, or receives a piece of what is left. -/
theorem readFrom_turn {rest : Bytes} {s : Socket} (h : Carries rest s) (buffer : Bytes) :
    answer? (message? buffer) = some (readFrom buffer s).1 ∨
    message? buffer = .ok none ∧
      (rest = [] ∧ (readFrom buffer s).1 = conclude buffer ∨
        ∃ piece rest' s', piece ≠ [] ∧ piece.length ≤ receiveLimit ∧ rest = piece ++ rest' ∧
          Carries rest' s' ∧ readFrom buffer s = readFrom (buffer ++ piece) s') := by
  match hverdict : message? buffer with
  | .error e => exact .inl (by rw [readFrom_eq, hverdict]; rfl)
  | .ok (some message) => exact .inl (by rw [readFrom_eq, hverdict]; rfl)
  | .ok none =>
    refine .inr ⟨rfl, ?_⟩
    by_cases hrest : rest = []
    · subst hrest
      obtain ⟨s', hreceive⟩ := receive_of_carries_nil h receiveLimit
      refine .inl ⟨rfl, ?_⟩
      rw [readFrom_eq, hverdict, hreceive, conclude, hverdict]
      dsimp only [answer?, Option.map_none, Option.getD_none]
      split <;> rfl
    · obtain ⟨piece, rest', s', hreceive, hne, hle, hcut, hcarries⟩ :=
        receive_of_carries h hrest (by decide : 0 < receiveLimit)
      exact .inr ⟨piece, rest', s', hne, hle, hcut, hcarries,
        readFrom_of_piece hverdict hreceive hne⟩

/-! ## Cuttings -/

/-- The pieces are a stream in non-empty parts. -/
structure IsCutting (stream : Bytes) (pieces : List Bytes) : Prop where
  flatten : pieces.flatten = stream
  nonempty : ∀ piece ∈ pieces, piece ≠ []

/-- What is read from a socket on which the pieces arrive, and then the end of the stream. -/
def readPieces (pieces : List Bytes) : Except Reading.Error Bytes :=
  (readMessage { arrivals := pieces.map .data }).1

theorem carries_of_isCutting {stream : Bytes} {pieces : List Bytes}
    (h : IsCutting stream pieces) : Carries stream { arrivals := pieces.map .data } :=
  ⟨pieces, ⟨rfl, rfl, h.nonempty⟩, h.flatten.symm⟩

theorem isCutting_singles (stream : Bytes) : IsCutting stream (stream.map ([·])) :=
  ⟨by rw [← List.flatMap_def, List.flatMap_singleton'], by simp⟩

theorem readPieces_whole {first : Bytes} {pieces : List Bytes} (hfirst : first ≠ [])
    (hnonempty : ∀ piece ∈ pieces, piece ≠ []) (hle : first.length ≤ receiveLimit)
    {answer : Except Reading.Error Bytes} (h : answer? (message? first) = some answer) :
    readPieces (first :: pieces) = answer := by
  have hdelivers : Delivers (first :: pieces) { arrivals := (first :: pieces).map .data } :=
    ⟨rfl, rfl, by simpa [hfirst] using hnonempty⟩
  obtain ⟨s', hreceive, -, -⟩ := receive_whole hdelivers rfl hle
  rw [readPieces, readMessage, readFrom_of_piece rfl hreceive hfirst, List.nil_append]
  rw [readFrom_eq]
  match hverdict : message? first with
  | .error e => simpa [hverdict, answer?] using h
  | .ok (some message) => simpa [hverdict, answer?] using h
  | .ok none => simp [hverdict, answer?] at h

end CannedReply.Proofs.Reading.Delivery
