import CannedReply.Proofs.ReplyFile.Exact
/-!
# The reply at startup

A server starts with what its reply file held, or with nothing if that could not be loaded.  Only a
file for which there is no room keeps it from starting.  Main statements: `loadOrEmpty_of_affords`,
`loadOrEmpty_of_not_affords`.
-/

namespace CannedReply.Proofs.ReplyFile.Startup

open CannedReply.ReplyFile
open CannedReply.Proofs.ReplyFile.Exact

/-- If the reply file opens and its size can be asked for, that size is a number of bytes for which
there is room. -/
def Affords (storage : Storage) : Prop :=
  ∀ content, storage.openFile (FilePath.ofText defaultPath) = .ok content →
    storage.sizeFault = none →
      ∃ size, Opened storage defaultPath content size ∧ HasRoom storage size

/-- The reply that a server starts with: the content of its file, if that can be loaded. -/
structure StartupReply (storage : Storage) (reply : Bytes) : Prop where
  loaded : ∀ content, load storage defaultPath = .ok content →
    storage.openFile (FilePath.ofText defaultPath) = .ok content ∧ reply = content
  missing : ∀ e, load storage defaultPath = .error e → reply = []
  readable : ∀ content, storage.openFile (FilePath.ofText defaultPath) = .ok content →
    storage.sizeFault = none → (∀ read, ∃ most, storage.pace read = .ok most) →
    load storage defaultPath = .ok content

variable {storage : Storage} {content reply : Bytes} {size : Nat}

theorem no_null_defaultPath : Char.ofNat 0 ∉ defaultPath.toList := by
  decide

/-- The size that is reported for a file is one number. -/
theorem affordable_of_affords (h : Affords storage) : Affordable storage defaultPath := by
  intro content size hopened
  obtain ⟨size', hopened', hroom⟩ := h content hopened.opens hopened.sized
  have hsame : (size : Int) = size' := hopened.reported.symm.trans hopened'.reported
  rwa [Int.ofNat_inj.1 hsame]

theorem promised_of_affords (h : Affords storage) :
    Promised storage defaultPath (load storage defaultPath) := by
  have hpromised : ∃ outcome, Promised storage defaultPath outcome := by
    cases hopen : storage.openFile (FilePath.ofText defaultPath) with
    | error e => exact ⟨_, .unopened hopen⟩
    | ok content =>
      cases hsized : storage.sizeFault with
      | some e => exact ⟨_, .unsized hopen hsized⟩
      | none =>
        obtain ⟨size, hopened, -⟩ := h content hopen hsized
        exact exists_promised_of_opened hopened
  obtain ⟨outcome, hpromised⟩ := hpromised
  rwa [load_of_promised no_null_defaultPath (affordable_of_affords h) hpromised]

/-! ## True sizes -/

theorem length_eq_of_opened (htrue : storage.reportedSize = none)
    (h : Opened storage defaultPath content size) : size = content.length := by
  have hreported := h.reported
  rw [htrue] at hreported
  exact (Int.ofNat_inj.1 hreported).symm

/-- If the size is the true one, what is loaded is the whole file. -/
theorem openFile_of_promised (htrue : storage.reportedSize = none)
    (h : Promised storage defaultPath (.ok content)) :
    storage.openFile (FilePath.ofText defaultPath) = .ok content := by
  cases h with
  | whole hopened _ _ =>
    rw [length_eq_of_opened htrue hopened, List.take_length]
    exact hopened.opens

theorem eq_ok_of_promised (htrue : storage.reportedSize = none)
    (hopen : storage.openFile (FilePath.ofText defaultPath) = .ok content)
    (hsized : storage.sizeFault = none) (hpace : ∀ read, ∃ most, storage.pace read = .ok most)
    {outcome : Except Error Bytes} (h : Promised storage defaultPath outcome) :
    outcome = .ok content := by
  cases h with
  | unopened hfails =>
    rw [hopen] at hfails
    contradiction
  | unsized _ hfails =>
    rw [hsized] at hfails
    contradiction
  | unread _ hfails =>
    obtain ⟨calls, received, -, -, hfails⟩ := hfails
    obtain ⟨most, hmost⟩ := hpace calls
    rw [hmost] at hfails
    contradiction
  | whole hopened _ _ =>
    obtain rfl := Except.ok.inj (hopen.symm.trans hopened.opens)
    rw [length_eq_of_opened htrue hopened, List.take_length]
  | ended hopened _ hsize =>
    rw [length_eq_of_opened htrue hopened] at hsize
    exact absurd hsize (Nat.lt_irrefl _)

theorem startupReply_of_affords (htrue : storage.reportedSize = none) (h : Affords storage)
    (hloaded : ∀ content, load storage defaultPath = .ok content → reply = content)
    (hmissing : ∀ e, load storage defaultPath = .error e → reply = []) :
    StartupReply storage reply where
  loaded := by
    intro content hload
    exact ⟨openFile_of_promised htrue (hload ▸ promised_of_affords h), hloaded content hload⟩
  missing := hmissing
  readable := by
    intro content hopen hsized hpace
    exact eq_ok_of_promised htrue hopen hsized hpace (promised_of_affords h)

/-! ## Loading with a fallback -/

/-- With room for the file there is a reply to start with, and it is what the file held if the size
that is reported is the true one. -/
theorem loadOrEmpty_of_affords (h : Affords storage) : ∃ reply record,
    loadOrEmpty storage defaultPath = .ok (reply, record) ∧
      (storage.reportedSize = none → StartupReply storage reply) := by
  have hfalls := fallsBack_of_promised (promised_of_affords h)
  cases hload : load storage defaultPath with
  | ok reply =>
    obtain ⟨record, hresult, -⟩ := hfalls.loaded reply hload
    refine ⟨reply, record, hresult, fun htrue => startupReply_of_affords htrue h ?_ ?_⟩
    · intro content hcontent
      exact Except.ok.inj (hload.symm.trans hcontent)
    · intro e hfailed
      rw [hload] at hfailed
      contradiction
  | error e =>
    obtain ⟨record, hresult, -⟩ := hfalls.missing e hload
    refine ⟨[], record, hresult, fun htrue => startupReply_of_affords htrue h ?_ fun _ _ => rfl⟩
    intro content hcontent
    rw [hload] at hcontent
    contradiction

theorem capacity_of_neg {memory : Nat} {size : Int} (h : size < 0) :
    ∃ e, capacity memory size = .error e ∧ e.isRecoverable = false := by
  unfold capacity
  rw [if_pos h]
  split
  · exact ⟨_, rfl, rfl⟩
  · exact ⟨_, rfl, rfl⟩

/-- Without room for the file there is no reply, not even an empty one. -/
theorem loadOrEmpty_of_not_affords (h : ¬ Affords storage) :
    ∃ e, loadOrEmpty storage defaultPath = .error e ∧ e.isRecoverable = false := by
  simp only [Affords, not_forall, not_exists, not_and] at h
  obtain ⟨content, hopen, hsized, hroom⟩ := h
  have hcapacity : ∃ e, capacity storage.memory (storage.reportedSize.getD content.length) =
      .error e ∧ e.isRecoverable = false := by
    cases hreported : storage.reportedSize.getD content.length with
    | ofNat size => exact capacity_of_no_room (hroom size ⟨hopen, hsized, hreported⟩)
    | negSucc n => exact capacity_of_neg (Int.negSucc_lt_zero n)
  obtain ⟨e, hcapacity, hbroken⟩ := hcapacity
  refine ⟨e, ?_, hbroken⟩
  unfold loadOrEmpty
  rw [load_of_no_capacity no_null_defaultPath hopen hsized hcapacity]
  dsimp only
  rw [hbroken]
  rfl

end CannedReply.Proofs.ReplyFile.Startup
