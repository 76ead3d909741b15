import CannedReply.Proofs.Framing.Fields
/-!
# Unfinished messages

Every proper prefix of a message in order is judged incomplete, wherever it ends, and none is
refused.  Main statement: `message?_of_prefix`.
-/

namespace CannedReply.Proofs.Framing.Prefixes

open CannedReply.Framing CannedReply.Framing.Chunked
open CannedReply.Proofs.Cut
open CannedReply.Proofs.Framing.ChunkGrammar
open CannedReply.Proofs.Framing.Fields
open CannedReply.Proofs.Framing.Growth

variable {front rest p : Bytes}

theorem prefix_append_cases (hp : p <+: front ++ rest) :
    p.length < front.length ∨ ∃ p', p = front ++ p' ∧ p' <+: rest := by
  rcases Nat.lt_or_ge p.length front.length with hlt | hge
  · exact .inl hlt
  · obtain ⟨p', rfl⟩ := List.prefix_of_prefix_length_le (List.prefix_append front rest) hp hge
    exact .inr ⟨p', rfl, (List.prefix_append_right_inj front).1 hp⟩

/-- A prefix of a line and what follows it ends inside the line, or holds the line. -/
theorem line_cases {line : Bytes} (h : Unbroken line) (hp : p <+: line ++ (Bytes.crlf ++ rest)) :
    (Bytes.line? p = none ∧ p.length < line.length + 2) ∨
      ∃ p', p = line ++ (Bytes.crlf ++ p') ∧ p' <+: rest := by
  have hline : Bytes.line? (line ++ (Bytes.crlf ++ rest)) = some (line, rest) :=
    line?_eq_some_iff.2 ⟨rfl, h⟩
  rw [← List.append_assoc] at hp
  obtain hshort | ⟨p', rfl, hp'⟩ := prefix_append_cases hp
  · rw [List.length_append] at hshort
    obtain ⟨t, ht⟩ := hp
    rw [← List.append_assoc, ← ht] at hline
    exact .inl ⟨cut?_of_short hline hshort, hshort⟩
  · exact .inr ⟨p', by rw [List.append_assoc], hp'⟩

/-! ## Trailers -/

theorem trailersFrom_open (h : Bytes.line? p = none) (hle : p.length ≤ maxHeadBytes)
    (consumed : Nat) : trailersFrom consumed p = .ok none := by
  rw [trailersFrom_eq, h]
  exact if_neg (Nat.not_lt.2 hle)

theorem trailersFrom_prefix {trailers : List Bytes} (h : ∀ t ∈ trailers, IsColonLine t)
    (hshort : ∀ t ∈ trailers, t.length < maxHeadBytes)
    (hp : p <+: Body.trailerBytes trailers ++ Bytes.crlf)
    (hproper : p.length < (Body.trailerBytes trailers ++ Bytes.crlf).length) (consumed : Nat) :
    trailersFrom consumed p = .ok none := by
  induction trailers generalizing p consumed with
  | nil =>
    have hend : p <+: [] ++ (Bytes.crlf ++ []) := hp
    obtain ⟨hline, hlt⟩ | ⟨p', rfl, -⟩ := line_cases (line?_eq_none_iff.1 rfl) hend
    · apply trailersFrom_open hline
      simp only [List.length_nil, maxHeadBytes] at hlt ⊢
      omega
    · simp [Body.trailerBytes] at hproper
  | cons t trailers ih =>
    have ht := h t (by simp)
    have hlong := hshort t (by simp)
    have hbytes : Body.trailerBytes (t :: trailers) ++ Bytes.crlf =
        t ++ (Bytes.crlf ++ (Body.trailerBytes trailers ++ Bytes.crlf)) := by
      simp [Body.trailerBytes]
    rw [hbytes] at hp hproper
    obtain ⟨hline, hlt⟩ | ⟨p', rfl, hp'⟩ := line_cases ht.1 hp
    · exact trailersFrom_open hline (by omega) consumed
    · rw [trailersFrom_trailer ht]
      apply ih (fun t' ht' => h t' (by simp [ht'])) (fun t' ht' => hshort t' (by simp [ht'])) hp'
      simp only [List.length_append] at hproper ⊢
      omega

/-! ## Chunks -/

/-- No line of the framing is longer than what is waited for while its end has not arrived. -/
structure Short (b : Body) : Prop where
  chunks : ∀ c ∈ b.chunks, c.sizeLine.length < maxHeadBytes
  last : b.last.length < maxHeadBytes
  trailers : ∀ t ∈ b.trailers, t.length < maxHeadBytes

theorem short_cons_iff {c : Chunk} {b : Body} :
    Short (b.cons c) ↔ c.sizeLine.length < maxHeadBytes ∧ Short b := by
  constructor
  · rintro ⟨hchunks, hlast, htrailers⟩
    obtain ⟨hc, hchunks⟩ := List.forall_mem_cons.1 hchunks
    exact ⟨hc, hchunks, hlast, htrailers⟩
  · rintro ⟨hc, hchunks, hlast, htrailers⟩
    exact ⟨List.forall_mem_cons.2 ⟨hc, hchunks⟩, hlast, htrailers⟩

theorem chunksFrom_open (h : Bytes.line? p = none) (hle : p.length ≤ maxHeadBytes)
    (consumed decoded : Nat) : chunksFrom consumed decoded p = .ok none := by
  rw [chunksFrom_eq, h]
  exact if_neg (Nat.not_lt.2 hle)

theorem afterData?_of_short {size : Nat} (h : p.length < size + 2) :
    afterData? size p = .ok none := by
  have hlen : (p.drop size).length < 2 := by
    rw [List.length_drop]
    omega
  unfold afterData?
  match hdrop : p.drop size with
  | [] => rfl
  | [b] => rfl
  | a :: b :: tail =>
    rw [hdrop] at hlen
    simp only [List.length_cons] at hlen
    omega

/-- A chunk whose data has not arrived is waited for. -/
theorem chunksFrom_of_short {c : Chunk} (hc : c.Formed) {decoded : Nat}
    (hfits : decoded + c.data.length ≤ maxBodyBytes) (h : p.length < c.data.length + 2)
    (consumed : Nat) :
    chunksFrom consumed decoded (c.sizeLine ++ (Bytes.crlf ++ p)) = .ok none := by
  have hpos : c.data.length ≠ 0 := by simp [hc.nonempty]
  rw [chunksFrom_eq, line?_eq_some_iff.2 ⟨rfl, hc.unbroken⟩]
  dsimp only
  rw [size?_eq_ok_iff.2 hc.size]
  dsimp only
  rw [if_neg hpos, if_neg (Nat.not_lt.2 hfits), afterData?_of_short h]

theorem chunksFrom_prefix {b : Body} (hb : b.Formed) (hshort : Short b) {decoded : Nat}
    (hfits : decoded + b.decoded.length ≤ maxBodyBytes) (hp : p <+: b.bytes)
    (hproper : p.length < b.bytes.length) (consumed : Nat) :
    chunksFrom consumed decoded p = .ok none := by
  obtain ⟨chunks, last, trailers⟩ := b
  induction chunks generalizing p consumed decoded with
  | nil =>
    have hbytes : Body.bytes ⟨[], last, trailers⟩ =
        last ++ (Bytes.crlf ++ (Body.trailerBytes trailers ++ Bytes.crlf)) := by
      simp [Body.bytes]
    rw [hbytes] at hp hproper
    have hunbroken : Unbroken last := hb.unbroken
    obtain ⟨hline, hlt⟩ | ⟨p', rfl, hp'⟩ := line_cases hunbroken hp
    · have hlast : last.length < maxHeadBytes := hshort.last
      exact chunksFrom_open hline (by omega) consumed decoded
    · rw [chunksFrom_last hb.unbroken hb.last]
      apply trailersFrom_prefix hb.trailers hshort.trailers hp'
      simp only [List.length_append] at hproper ⊢
      omega
  | cons c chunks ih =>
    change (Body.cons c ⟨chunks, last, trailers⟩).Formed at hb
    change Short (Body.cons c ⟨chunks, last, trailers⟩) at hshort
    change decoded + (Body.cons c ⟨chunks, last, trailers⟩).decoded.length ≤ maxBodyBytes at hfits
    change p <+: (Body.cons c ⟨chunks, last, trailers⟩).bytes at hp
    change p.length < (Body.cons c ⟨chunks, last, trailers⟩).bytes.length at hproper
    obtain ⟨hc, hb⟩ := Body.formed_cons_iff.1 hb
    obtain ⟨hlong, hshort⟩ := short_cons_iff.1 hshort
    rw [Body.decoded_cons, List.length_append] at hfits
    rw [Body.bytes_cons] at hp hproper
    obtain hlt | ⟨p', rfl, hp'⟩ := prefix_append_cases hp
    · -- The prefix ends inside the first chunk.
      have hbytes : c.bytes ++ Body.bytes ⟨chunks, last, trailers⟩ = c.sizeLine ++ (Bytes.crlf ++
          (c.data ++ (Bytes.crlf ++ Body.bytes ⟨chunks, last, trailers⟩))) := by
        simp [Chunk.bytes]
      rw [hbytes] at hp
      obtain ⟨hline, hlt⟩ | ⟨p', rfl, -⟩ := line_cases hc.unbroken hp
      · exact chunksFrom_open hline (by omega) consumed decoded
      · apply chunksFrom_of_short hc (by omega)
        simp only [Chunk.bytes, List.length_append, Bytes.crlf, List.length_cons,
          List.length_nil] at hlt
        omega
    · rw [chunksFrom_chunk hc (by omega)]
      apply ih _ hb hshort (by omega) hp'
      simp only [List.length_append] at hproper
      omega

/-! ## Messages -/

/-- A message in order: its head, and a body of the length that the head declares or in chunks. -/
inductive IsMessage : Bytes → Prop where
  | ofLength {requestLine : Bytes} {fields : List Bytes} {body : Bytes} :
      IsHead requestLine fields → ¬ AnnouncesChunks fields → Declares fields body.length →
      body.length ≤ maxBodyBytes →
      IsMessage (headBytes requestLine fields ++ (Bytes.emptyLine ++ body))
  | ofChunks {requestLine : Bytes} {fields : List Bytes} {body : Body} :
      IsHead requestLine fields → AnnouncesChunks fields → body.Formed →
      body.decoded.length ≤ maxBodyBytes → Short body →
      IsMessage (headBytes requestLine fields ++ (Bytes.emptyLine ++ body.bytes))

/-- The body is complete, and no proper prefix of it is. -/
def Ends (head body : Bytes) : Prop :=
  bodyLength? head body = .ok (some body.length) ∧
    ∀ p, p <+: body → p.length < body.length → bodyLength? head p = .ok none

theorem ends_of_isMessage {message : Bytes} (h : IsMessage message) :
    ∃ requestLine fields body, IsHead requestLine fields ∧
      Ends (headBytes requestLine fields) body ∧
      message = headBytes requestLine fields ++ (Bytes.emptyLine ++ body) := by
  cases h with
  | @ofLength requestLine fields body hhead hplain hlength hfits =>
    refine ⟨requestLine, fields, body, hhead, ⟨?_, fun p hp hproper => ?_⟩, rfl⟩
    · rw [bodyLength?_of_length hhead hplain hlength hfits, if_neg (Nat.lt_irrefl _)]
    · rw [bodyLength?_of_length hhead hplain hlength hfits, if_pos hproper]
  | @ofChunks requestLine fields body hhead hchunks hbody hfits hshort =>
    refine ⟨requestLine, fields, body.bytes, hhead, ⟨?_, fun p hp hproper => ?_⟩, rfl⟩
    · have hlength := length?_bytes hbody hfits []
      rwa [List.append_nil, ← bodyLength?_of_chunks hhead hchunks] at hlength
    · rw [bodyLength?_of_chunks hhead hchunks]
      exact chunksFrom_prefix hbody hshort (by omega) hp hproper 0

theorem message?_of_isMessage {message : Bytes} (h : IsMessage message) :
    message? message = .ok (some message) := by
  obtain ⟨requestLine, fields, body, hhead, hends, rfl⟩ := ends_of_isMessage h
  refine message?_eq_some_iff.2 ⟨headBytes requestLine fields, body, [], ?_, hhead.short, ?_, rfl⟩
  · rw [List.append_nil, cut?_headBytes hhead.unbroken hhead.colons]
  · rw [List.append_nil, hends.1]

/-- A message in order is waited for until its last byte. -/
theorem message?_of_prefix {message : Bytes} (h : IsMessage message) (hp : p <+: message)
    (hproper : p.length < message.length) : message? p = .ok none := by
  obtain ⟨requestLine, fields, body, hhead, hends, rfl⟩ := ends_of_isMessage h
  have hcut := cut?_headBytes hhead.unbroken hhead.colons
  rw [← List.append_assoc] at hp
  obtain hshort | ⟨p', rfl, hp'⟩ := prefix_append_cases hp
  · -- The prefix ends inside the head or its empty line.
    rw [List.length_append] at hshort
    have hnone : Delimiter.cut? Bytes.emptyLine p = none := by
      obtain ⟨t, ht⟩ := hp
      have hwhole := hcut body
      rw [← List.append_assoc, ← ht] at hwhole
      exact cut?_of_short hwhole hshort
    have hlimit := hhead.short
    simp only [Bytes.emptyLine, List.length_cons, List.length_nil] at hshort
    unfold message?
    rw [hnone]
    exact if_neg (by omega)
  · rw [List.append_assoc] at hproper ⊢
    have hlt : p'.length < body.length := by
      simp only [List.length_append] at hproper
      omega
    unfold message?
    rw [hcut p']
    dsimp only
    rw [if_neg (Nat.not_lt.2 hhead.short), hends.2 p' hp' hlt]
    rfl

end CannedReply.Proofs.Framing.Prefixes
