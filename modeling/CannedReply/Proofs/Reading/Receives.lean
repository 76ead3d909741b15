import CannedReply.Proofs.Framing.Growth
import CannedReply.Reading
/-!
# The receives of a reading

One turn of the reader frames its buffer and, if that decides nothing, receives once more.  Here
are all that a receive can do, the equation of a turn, the states in which the reader receives, and
the part of a socket that no receive touches.
-/

namespace CannedReply.Proofs.Reading.Receives

open CannedReply.Framing CannedReply.Reading
open CannedReply.Proofs.Framing.Growth

/-! ## What a receive can do -/

/-- The ways out of a receive on `s` that asks for at most `limit` bytes. -/
inductive ReceiveTurn (limit : Nat) (s : Socket) :
    Except Socket.ReceiveError Bytes → Socket → Prop where
  | closed : s.closed = true → ReceiveTurn limit s (.error (.fault .badDescriptor)) s
  | pending : s.closed = false → s.pending ≠ [] →
      ReceiveTurn limit s (.ok (s.pending.take limit))
        { s with receives := s.receives + 1, pending := s.pending.drop limit }
  | drained : s.closed = false → s.pending = [] → s.arrivals = [] →
      ReceiveTurn limit s (.ok []) { s with receives := s.receives + 1 }
  | arrived {bytes : Bytes} {rest : List Arrival} : s.closed = false → s.pending = [] →
      s.arrivals = .data bytes :: rest →
      ReceiveTurn limit s (.ok (bytes.take limit))
        { s with receives := s.receives + 1, arrivals := rest, pending := bytes.drop limit }
  | late {rest : List Arrival} : s.closed = false → s.pending = [] →
      s.arrivals = .timeout :: rest →
      ReceiveTurn limit s (.error .timedOut)
        { s with receives := s.receives + 1, arrivals := rest }
  | failed {e : SysError} {rest : List Arrival} : s.closed = false → s.pending = [] →
      s.arrivals = .fault e :: rest →
      ReceiveTurn limit s (.error (.ofSysError e))
        { s with receives := s.receives + 1, arrivals := rest }

theorem receive_turn {limit : Nat} {s s' : Socket} {result : Except Socket.ReceiveError Bytes}
    (h : s.receive limit = (result, s')) : ReceiveTurn limit s result s' := by
  unfold Socket.receive Socket.takePending at h
  split at h
  · rename_i hclosed
    obtain ⟨rfl, rfl⟩ := Prod.mk.inj h
    exact .closed hclosed
  · rename_i hopen
    rw [Bool.not_eq_true] at hopen
    dsimp only at h
    split at h
    · rename_i hpending
      obtain ⟨rfl, rfl⟩ := Prod.mk.inj h
      exact .pending hopen (by simp [hpending])
    · rename_i hpending
      split at h <;> rename_i harrivals <;> obtain ⟨rfl, rfl⟩ := Prod.mk.inj h
      · exact .drained hopen hpending harrivals
      · exact .arrived hopen hpending harrivals
      · exact .late hopen hpending harrivals
      · exact .failed hopen hpending harrivals

/-! ## The turns of the reader -/

theorem readFrom_eq (buffer : Bytes) (s : Socket) :
    readFrom buffer s =
      match message? buffer with
      | .error e => (.error (.framing e), s)
      | .ok (some message) => (.ok message, s)
      | .ok none =>
        match s.receive receiveLimit with
        | (.error .timedOut, s') => (.error .timedOut, s')
        | (.error (.fault e), s') => (.error (.lost e), s')
        | (.ok [], s') => if buffer.isEmpty then (.ok [], s') else (.error .endedEarly, s')
        | (.ok (b :: bs), s') => readFrom (buffer ++ b :: bs) s' := by
  rw [readFrom]
  cases message? buffer with
  | error e => rfl
  | ok verdict =>
    cases verdict with
    | some message => rfl
    | none =>
      dsimp only
      split <;> rename_i hreceive <;> rw [hreceive]

theorem readFrom_of_piece {buffer piece : Bytes} {s s' : Socket} (h : message? buffer = .ok none)
    (hreceive : s.receive receiveLimit = (.ok piece, s')) (hne : piece ≠ []) :
    readFrom buffer s = readFrom (buffer ++ piece) s' := by
  obtain ⟨b, bs, rfl⟩ := List.exists_cons_of_ne_nil hne
  rw [readFrom_eq, h, hreceive]

theorem message?_nil : message? [] = .ok none :=
  rfl

/-! ## Where the reader receives -/

/-- A reading of `start` receives on the socket `s` while it holds the bytes in `buffer`. -/
inductive Waits (start : Socket) : Bytes → Socket → Prop where
  | first : Waits start [] start
  | next {buffer piece : Bytes} {s s' : Socket} : Waits start buffer s →
      s.receive receiveLimit = (.ok piece, s') → piece ≠ [] →
      message? (buffer ++ piece) = .ok none → Waits start (buffer ++ piece) s'

variable {start s s' : Socket} {buffer : Bytes}

theorem message?_of_waits (h : Waits start buffer s) : message? buffer = .ok none := by
  cases h with
  | first => exact message?_nil
  | next _ _ _ hverdict => exact hverdict

/-- What is left to do where the reader receives is all that is left of its reading. -/
theorem readMessage_of_waits (h : Waits start buffer s) :
    readMessage start = readFrom buffer s := by
  induction h with
  | first => rfl
  | next hwaits hreceive hne _ ih =>
    rw [ih, readFrom_of_piece (message?_of_waits hwaits) hreceive hne]

/-- A connection that is lost is lost in a receive of the reading. -/
theorem exists_fault_of_lost {e : SysError} (h : (readMessage start).1 = .error (.lost e)) :
    ∃ buffer s s', Waits start buffer s ∧ s.receive receiveLimit = (.error (.fault e), s') := by
  suffices hfrom : ∀ buffer s, (message? buffer = .ok none → Waits start buffer s) →
      (readFrom buffer s).1 = .error (.lost e) →
      ∃ buffer s s', Waits start buffer s ∧ s.receive receiveLimit = (.error (.fault e), s') from
    hfrom [] start (fun _ => .first) h
  intro buffer s
  fun_induction readFrom buffer s with
  | case4 buffer s hverdict e' s' hreceive =>
    intro hwaits h
    obtain rfl : e' = e := by simpa using h
    exact ⟨buffer, s, s', hwaits hverdict, hreceive⟩
  | case7 buffer s hverdict b bs s' hreceive ih =>
    intro hwaits h
    exact ih (fun hnext => .next (hwaits hverdict) hreceive (by simp) hnext) h
  | _ =>
    intro _ h
    simp at h

/-! ## Readings of nothing -/

theorem readFrom_ne_nil (hne : buffer ≠ []) (s : Socket) : (readFrom buffer s).1 ≠ .ok [] := by
  fun_induction readFrom buffer s with
  | case2 buffer s message hverdict =>
    obtain ⟨head, rest, body, -, -, rfl⟩ := eq_append_of_message? hverdict
    simp [Bytes.emptyLine]
  | case5 buffer s hverdict s' hreceive hempty => exact absurd (List.isEmpty_iff.1 hempty) hne
  | case7 buffer s hverdict b bs s' hreceive ih => exact ih (by simp)
  | _ => simp

/-! ## What a receive does not touch -/

/-- Two sockets that differ at most in what will arrive and in what has been received. -/
structure Untouched (s s' : Socket) : Prop where
  sent : s'.sent = s.sent
  closed : s'.closed = s.closed
  peerFault : s'.peerFault = s.peerFault
  sendFault : s'.sendFault = s.sendFault
  patience : s'.patience = s.patience

theorem Untouched.refl (s : Socket) : Untouched s s := ⟨rfl, rfl, rfl, rfl, rfl⟩

theorem Untouched.trans {s₁ s₂ s₃ : Socket} (h : Untouched s₁ s₂) (h' : Untouched s₂ s₃) :
    Untouched s₁ s₃ :=
  ⟨h'.sent.trans h.sent, h'.closed.trans h.closed, h'.peerFault.trans h.peerFault,
    h'.sendFault.trans h.sendFault, h'.patience.trans h.patience⟩

theorem untouched_of_receive {limit : Nat} {result : Except Socket.ReceiveError Bytes}
    (h : s.receive limit = (result, s')) : Untouched s s' := by
  cases receive_turn h with
  | closed => exact .refl s
  | _ => exact ⟨rfl, rfl, rfl, rfl, rfl⟩

theorem receives_of_ok {limit : Nat} {piece : Bytes} (h : s.receive limit = (.ok piece, s')) :
    s'.receives = s.receives + 1 := by
  cases receive_turn h <;> rfl

theorem receives_le_of_receive {limit : Nat} {result : Except Socket.ReceiveError Bytes}
    (h : s.receive limit = (result, s')) : s'.receives ≤ s.receives + 1 := by
  cases receive_turn h with
  | closed => exact Nat.le_succ _
  | _ => exact Nat.le_refl _

theorem readFrom_untouched (buffer : Bytes) (s : Socket) :
    Untouched s (readFrom buffer s).2 := by
  fun_induction readFrom buffer s with
  | case1 => exact .refl _
  | case2 => exact .refl _
  | case7 buffer s hverdict b bs s' hreceive ih => exact (untouched_of_receive hreceive).trans ih
  | _ => exact untouched_of_receive (by assumption)

theorem untouched_of_waits (h : Waits start buffer s) : Untouched start s := by
  induction h with
  | first => exact .refl start
  | next _ hreceive _ _ ih => exact ih.trans (untouched_of_receive hreceive)

/-! ## Readings that are not broken off -/

/-- The stream ends before its first byte. -/
def EndsAtOnce (start : Socket) : Prop :=
  ∃ s', start.receive receiveLimit = (.ok [], s')

/-- No receive of a reading of `start` ends in a fault of the system. -/
def Faultless (start : Socket) : Prop :=
  ∀ buffer s e s', Waits start buffer s → s.receive receiveLimit ≠ (.error (.fault e), s')

/-- Nothing is read just when the stream ends at once. -/
theorem readMessage_eq_nil_iff : (readMessage start).1 = .ok [] ↔ EndsAtOnce start := by
  unfold readMessage
  rw [readFrom_eq, message?_nil]
  dsimp only
  constructor
  · intro h
    split at h
    · contradiction
    · contradiction
    · rename_i s' hreceive
      exact ⟨s', hreceive⟩
    · rename_i b bs s' hreceive
      exact absurd h (readFrom_ne_nil (by simp) s')
  · rintro ⟨s', hreceive⟩
    rw [hreceive]
    rfl

theorem readMessage_ne_lost (h : Faultless start) (e : SysError) :
    (readMessage start).1 ≠ .error (.lost e) := by
  intro hlost
  obtain ⟨buffer, s, s', hwaits, hreceive⟩ := exists_fault_of_lost hlost
  exact h buffer s e s' hwaits hreceive

/-- A closed socket fails its first receive. -/
theorem readMessage_of_closed (h : start.closed = true) :
    (readMessage start).1 = .error (.lost .badDescriptor) := by
  have hreceive : start.receive receiveLimit = (.error (.fault .badDescriptor), start) := by
    unfold Socket.receive
    rw [if_pos h]
    rfl
  unfold readMessage
  rw [readFrom_eq, message?_nil, hreceive]

theorem arrivals_subset_of_receive {limit : Nat} {result : Except Socket.ReceiveError Bytes}
    (h : s.receive limit = (result, s')) : s'.arrivals ⊆ s.arrivals := by
  cases receive_turn h with
  | arrived _ _ harrivals | late _ _ harrivals | failed _ _ harrivals => simp [harrivals]
  | _ => exact List.Subset.refl _

theorem fault_mem_of_receive {limit : Nat} {e : SysError} (hopen : s.closed = false)
    (h : s.receive limit = (.error (.fault e), s')) :
    .fault e ∈ s.arrivals ∧ e.isTimeout = false := by
  generalize hresult : Except.error (Socket.ReceiveError.fault e) = result at h
  cases receive_turn h with
  | closed hclosed => simp [hopen] at hclosed
  | @failed e' rest _ _ harrivals =>
    have hkind := Except.error.inj hresult
    unfold Socket.ReceiveError.ofSysError at hkind
    split at hkind
    · contradiction
    · rename_i hlasting
      obtain rfl := Socket.ReceiveError.fault.inj hkind
      rw [harrivals]
      exact ⟨List.mem_cons_self, Bool.eq_false_iff.2 hlasting⟩
  | _ => simp at hresult

/-- An open socket for which only faults are in store that count as timeouts. -/
theorem faultless_of_script (hopen : start.closed = false)
    (harrivals : ∀ e, .fault e ∈ start.arrivals → e.isTimeout = true) : Faultless start := by
  intro buffer s e s' hwaits hreceive
  have hsubset : s.arrivals ⊆ start.arrivals := by
    clear hreceive
    induction hwaits with
    | first => exact List.Subset.refl _
    | next _ hreceive _ _ ih => exact List.Subset.trans (arrivals_subset_of_receive hreceive) ih
  have hclosed := (untouched_of_waits hwaits).closed
  obtain ⟨hmem, hlasting⟩ := fault_mem_of_receive (hclosed.trans hopen) hreceive
  have htimeout := harrivals e (hsubset hmem)
  rw [hlasting] at htimeout
  contradiction

end CannedReply.Proofs.Reading.Receives
