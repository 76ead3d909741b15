import CannedReply.Proofs.Framing.ChunkGrammar
/-!
# Messages and what follows them

A message is a prefix of its buffer that is complete by itself, so it does not depend on what
follows it and is never a proper prefix of another message.  Main statement: `message?_stable`.
-/

namespace CannedReply.Proofs.Framing.Stability

open CannedReply.Framing
open CannedReply.Proofs.Cut
open CannedReply.Proofs.Framing.ChunkGrammar
open CannedReply.Proofs.Framing.Growth

variable {buffer message : Bytes}

/-- The first empty line of a buffer is the first one of every prefix that holds it. -/
theorem cut?_of_append {delimiter front rest t : Bytes}
    (h : Delimiter.cut? delimiter (front ++ (delimiter ++ rest) ++ t) = some (front, rest ++ t)) :
    Delimiter.cut? delimiter (front ++ (delimiter ++ rest)) = some (front, rest) := by
  refine cut?_eq_some_iff.2 ⟨rfl, fun front' rest' hsame => ?_⟩
  have hlonger : front ++ (delimiter ++ rest) ++ t = front' ++ (delimiter ++ (rest' ++ t)) := by
    rw [hsame, List.append_assoc, List.append_assoc]
  exact length_le_of_cut? h hlonger

theorem length?_take {s : Bytes} {n : Nat} (h : Chunked.length? s = .ok (some n)) :
    Chunked.length? (s.take n) = .ok (some n) := by
  obtain ⟨hn, hbody⟩ := length?_eq_some_iff.1 h
  have hlen : (s.take n).length = n := by
    rw [List.length_take, Nat.min_eq_left hn]
  apply length?_eq_some_iff.2
  refine ⟨hlen.ge, ?_⟩
  rwa [List.take_take, Nat.min_self]

/-- A body ends by its own bytes. -/
theorem bodyLength?_take {head rest : Bytes} {n : Nat}
    (h : bodyLength? head rest = .ok (some n)) :
    bodyLength? head (rest.take n) = .ok (some n) := by
  have hlen : (rest.take n).length = n := by
    rw [List.length_take, Nat.min_eq_left (bodyLength?_le h)]
  rw [bodyLength?_eq] at h ⊢
  cases hencoding : Head.transferEncoding? head with
  | error e => simp [hencoding] at h
  | ok encoding =>
    simp only [hencoding] at h ⊢
    split
    · rename_i hchunked
      rw [if_pos hchunked] at h
      exact length?_take h
    · rename_i hplain
      rw [if_neg hplain] at h
      cases hlength : Head.contentLength head with
      | error e => simp [hlength] at h
      | ok length =>
        simp only [hlength] at h ⊢
        split at h
        · contradiction
        · rename_i hlimit
          split at h
          · simp at h
          · obtain rfl : length = n := by simpa using h
            rw [if_neg hlimit, if_neg (by omega)]

/-- What is taken out of a buffer is a message by itself. -/
theorem message?_self (h : message? buffer = .ok (some message)) :
    message? message = .ok (some message) := by
  obtain ⟨head, body, rest, hcut, hlimit, hbody, rfl⟩ := message?_eq_some_iff.1 h
  have hbuffer : buffer = head ++ (Bytes.emptyLine ++ body) ++ rest := by
    rw [Delimiter.append_of_cut? hcut]
    simp
  have hself := bodyLength?_take hbody
  rw [List.take_left] at hself
  rw [hbuffer] at hcut
  apply message?_eq_some_iff.2
  refine ⟨head, body, [], ?_, hlimit, ?_, rfl⟩
  · rw [List.append_nil]
    exact cut?_of_append hcut
  · rwa [List.append_nil]

theorem prefix_of_message? (h : message? buffer = .ok (some message)) : message <+: buffer := by
  obtain ⟨head, rest, body, hbuffer, -, rfl⟩ := eq_append_of_message? h
  exact ⟨rest, by rw [hbuffer]; simp⟩

theorem message?_grown (h : message? buffer = .ok (some message)) (rest : Bytes) :
    message? (buffer ++ rest) = .ok (some message) := by
  have hsettled : Settled (message? buffer) := by
    rw [h]
    exact settled_some message
  rw [message?_append hsettled, h]

/-- Two messages of which one starts with the other are the same. -/
theorem eq_of_prefix {longer : Bytes} (h : message? message = .ok (some message))
    (hlonger : message? longer = .ok (some longer)) (hstart : message <+: longer) :
    longer = message := by
  obtain ⟨rest, rfl⟩ := hstart
  rw [message?_grown h rest] at hlonger
  simpa using hlonger.symm

theorem isOverlong_eq_false {e : Error} (hsize : e.message ≠ "Chunk size line too long")
    (htrailers : e.message ≠ "Chunked trailers exceeded MAX_HEADER_BYTES") :
    isOverlong e = false := by
  cases e
  case chunkSizeTooLong => exact absurd rfl hsize
  case trailersTooLarge => exact absurd rfl htrailers
  all_goals rfl

/-- A message stays what it is whatever follows it, and so does an error, unless it says that a
line is too long whose end has not arrived. -/
theorem message?_stable (buffer : Bytes) :
    (∀ message, message? buffer = .ok (some message) →
      message <+: buffer ∧ message? message = .ok (some message) ∧
      (∀ rest, message? (buffer ++ rest) = .ok (some message)) ∧
      ∀ longer, message? longer = .ok (some longer) → message <+: longer → longer = message) ∧
    ∀ e, message? buffer = .error e → e.message ≠ "Chunk size line too long" →
      e.message ≠ "Chunked trailers exceeded MAX_HEADER_BYTES" →
      ∀ rest, message? (buffer ++ rest) = .error e := by
  constructor
  · intro message h
    have hself := message?_self h
    exact ⟨prefix_of_message? h, hself, message?_grown h, fun longer => eq_of_prefix hself⟩
  · intro e h hsize htrailers rest
    have hsettled : Settled (message? buffer) := by
      rw [h]
      exact isOverlong_eq_false hsize htrailers
    rw [message?_append hsettled, h]

/-- The start of a second message behind the first, and a length that is no number. -/
theorem message?_stable_pipelined :
    message? (Bytes.ofText "POST / HTTP/1.1\r\nContent-Length: 2\r\n\r\nok") =
      .ok (some (Bytes.ofText "POST / HTTP/1.1\r\nContent-Length: 2\r\n\r\nok")) ∧
    message? (Bytes.ofText "GET /\r\nContent-Length: x\r\n\r\n" ++ Bytes.ofText "more") =
      .error .invalidContentLength := by
  constructor
  · have htaken : message? (Bytes.ofText "POST / HTTP/1.1\r\nContent-Length: 2\r\n\r\nokGET /") =
        .ok (some (Bytes.ofText "POST / HTTP/1.1\r\nContent-Length: 2\r\n\r\nok")) := by rfl
    exact ((message?_stable _).1 _ htaken).2.1
  · have hrefused : message? (Bytes.ofText "GET /\r\nContent-Length: x\r\n\r\n") =
        .error .invalidContentLength := by rfl
    exact (message?_stable _).2 _ hrefused (by decide) (by decide) (Bytes.ofText "more")

end CannedReply.Proofs.Framing.Stability
