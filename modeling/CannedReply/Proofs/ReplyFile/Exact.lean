import CannedReply.Proofs.ReplyFile.Fill
import CannedReply.ReplyFile.Fallback
import Mathlib.Tactic.ByContra
/-!
# Loading at any size

The system reports some size for the reply file and hands the file out in pieces of its own choice.
The reply is the first bytes of the file, as many as were reported, or it is refused, and whatever
the system fails in can be gone on from.  Only a size for which there is no room breaks off the
loading.  Main statement: `load_exact_iff`.
-/

namespace CannedReply.Proofs.ReplyFile.Exact

open CannedReply.ReplyFile
open CannedReply.Proofs.ReplyFile.Fill

/-! ## Sizes -/

/-- The path leads to a file with `content`, for which the system reports `size` bytes. -/
structure Opened (storage : Storage) (path : String) (content : Bytes) (size : Nat) : Prop where
  opens : storage.openFile (FilePath.ofText path) = .ok content
  sized : storage.sizeFault = none
  reported : storage.reportedSize.getD content.length = size

/-- There is room for a file of that size, a number of bytes that 64 bits can count. -/
def HasRoom (storage : Storage) (size : Nat) : Prop :=
  size ≤ storage.memory ∧ size < 0x8000000000000000

/-- Whatever is reported for the file, there is room for it. -/
def Affordable (storage : Storage) (path : String) : Prop :=
  ∀ content size, Opened storage path content size → HasRoom storage size

/-- The system reports no size below zero. -/
def ReportsNatural (storage : Storage) : Prop := ∀ n, storage.reportedSize = some n → 0 ≤ n

theorem capacity_of_room {storage : Storage} {size : Nat} (h : HasRoom storage size) :
    capacity storage.memory size = .ok size := by
  unfold HasRoom at h
  unfold capacity
  rw [if_neg (by simp; omega), if_neg (by omega), if_neg (by omega)]
  rfl

theorem capacity_of_no_room {storage : Storage} {size : Nat} (h : ¬ HasRoom storage size) :
    ∃ e, capacity storage.memory size = .error e ∧ e.isRecoverable = false := by
  unfold HasRoom at h
  unfold capacity
  by_cases hcount : size < 0x8000000000000000
  · rw [if_neg (by simp; omega), if_neg (by omega), if_pos (by omega)]
    exact ⟨_, rfl, rfl⟩
  · rw [if_pos (by simp; omega)]
    exact ⟨_, rfl, rfl⟩

/-! ## What loading ends in -/

/-- What the loading of a reply should end in: the first bytes of the file, as many as were
reported, or the one reason why they cannot be had. -/
inductive Promised (storage : Storage) (path : String) : Except Error Bytes → Prop
  | unopened {e : SysError} : storage.openFile (FilePath.ofText path) = .error e →
      Promised storage path (.error (.cannotOpen (FilePath.ofText path) e))
  | unsized {content : Bytes} {e : SysError} :
      storage.openFile (FilePath.ofText path) = .ok content → storage.sizeFault = some e →
      Promised storage path (.error (.cannotRead (FilePath.ofText path) e))
  | unread {content : Bytes} {size : Nat} {e : SysError} : Opened storage path content size →
      ReadFails storage.pace content size e →
      Promised storage path (.error (.cannotRead (FilePath.ofText path) e))
  | whole {content : Bytes} {size : Nat} : Opened storage path content size →
      (∀ e, ¬ ReadFails storage.pace content size e) → size ≤ content.length →
      Promised storage path (.ok (content.take size))
  | ended {content : Bytes} {size : Nat} : Opened storage path content size →
      (∀ e, ¬ ReadFails storage.pace content size e) → content.length < size →
      Promised storage path
        (.error (.incomplete (FilePath.ofText path) size content.length))

/-- Loading with a fallback has the reply and one record of it, or the empty reply and one
warning. -/
structure FallsBack (storage : Storage) (path : String) : Prop where
  loaded : ∀ reply, load storage path = .ok reply →
    ∃ record, loadOrEmpty storage path = .ok (reply, record) ∧ record.level = .info
  missing : ∀ e, load storage path = .error e →
    ∃ record, loadOrEmpty storage path = .ok ([], record) ∧ record.level = .warning

section Load

variable {storage : Storage} {path : String} {content : Bytes} {size : Nat} {e : Error}

theorem load_of_no_null (hnull : Char.ofNat 0 ∉ path.toList) :
    load storage path =
      match storage.openFile (FilePath.ofText path) with
      | .error e => .error (.cannotOpen (FilePath.ofText path) e)
      | .ok content => readOpened storage (FilePath.ofText path) content := by
  have hcontains : path.toList.contains (Char.ofNat 0) = false := by simpa using hnull
  unfold load
  rw [hcontains]
  rfl

theorem load_of_opened (hnull : Char.ofNat 0 ∉ path.toList)
    (hopened : Opened storage path content size) :
    load storage path = readOpened storage (FilePath.ofText path) content := by
  rw [load_of_no_null hnull, hopened.opens]

/-- A size that cannot be set aside is what the loading ends in, before anything is read. -/
theorem load_of_no_capacity (hnull : Char.ofNat 0 ∉ path.toList)
    (hopen : storage.openFile (FilePath.ofText path) = .ok content)
    (hsized : storage.sizeFault = none)
    (hcapacity : capacity storage.memory (storage.reportedSize.getD content.length) = .error e) :
    load storage path = .error e := by
  rw [load_of_no_null hnull, hopen]
  dsimp only
  rw [readOpened, hsized]
  dsimp only
  rw [hcapacity]

theorem load_of_no_room (hnull : Char.ofNat 0 ∉ path.toList)
    (hopened : Opened storage path content size) (hroom : ¬ HasRoom storage size) :
    ∃ e, load storage path = .error e ∧ e.isRecoverable = false := by
  obtain ⟨e, hcapacity, hbroken⟩ := capacity_of_no_room hroom
  refine ⟨e, load_of_no_capacity hnull hopened.opens hopened.sized ?_, hbroken⟩
  rw [hopened.reported, hcapacity]

theorem load_of_failed {cause : SysError} (hnull : Char.ofNat 0 ∉ path.toList)
    (hopened : Opened storage path content size) (hroom : HasRoom storage size)
    (hfill : fill storage.pace 0 size content = .error cause) :
    load storage path = .error (.cannotRead (FilePath.ofText path) cause) := by
  rw [load_of_opened hnull hopened, readOpened, hopened.sized, hopened.reported]
  dsimp only
  rw [capacity_of_room hroom]
  dsimp only
  rw [hfill]

/-- What has been read is the reply, if it is as long as was reported. -/
theorem load_of_filled {reply : Bytes} (hnull : Char.ofNat 0 ∉ path.toList)
    (hopened : Opened storage path content size) (hroom : HasRoom storage size)
    (hfill : fill storage.pace 0 size content = .ok reply) :
    load storage path =
      if reply.length = size then .ok reply
      else .error (.incomplete (FilePath.ofText path) size reply.length) := by
  rw [load_of_opened hnull hopened, readOpened, hopened.sized, hopened.reported]
  dsimp only
  rw [capacity_of_room hroom]
  dsimp only
  rw [hfill]

theorem load_of_promised {outcome : Except Error Bytes} (hnull : Char.ofNat 0 ∉ path.toList)
    (hroom : Affordable storage path) (h : Promised storage path outcome) :
    load storage path = outcome := by
  cases h with
  | unopened hopen => rw [load_of_no_null hnull, hopen]
  | unsized hopen hsized =>
    rw [load_of_no_null hnull, hopen]
    dsimp only
    rw [readOpened, hsized]
  | unread hopened hfails =>
    exact load_of_failed hnull hopened (hroom _ _ hopened) (fill_of_readFails hfails)
  | whole hopened hreads hsize =>
    rw [load_of_filled hnull hopened (hroom _ _ hopened) (fill_of_not_readFails hreads),
      List.length_take, if_pos (Nat.min_eq_left hsize)]
  | ended hopened hreads hsize =>
    rw [load_of_filled hnull hopened (hroom _ _ hopened) (fill_of_not_readFails hreads),
      List.length_take, Nat.min_eq_right (Nat.le_of_lt hsize), if_neg (Nat.ne_of_lt hsize)]

/-- A path that opens has a size, unless the system fails to tell it. -/
theorem opened_cases (hnatural : ReportsNatural storage)
    (hopen : storage.openFile (FilePath.ofText path) = .ok content) :
    (∃ e, storage.sizeFault = some e) ∨ ∃ size, Opened storage path content size := by
  cases hsized : storage.sizeFault with
  | some e => exact .inl ⟨e, rfl⟩
  | none =>
    refine .inr ⟨(storage.reportedSize.getD content.length).toNat, hopen, hsized, ?_⟩
    cases hreported : storage.reportedSize with
    | none => simp
    | some n => simp [Int.toNat_of_nonneg (hnatural n hreported)]

theorem exists_promised_of_opened (hopened : Opened storage path content size) :
    ∃ outcome, Promised storage path outcome := by
  by_cases hreads : ∃ e, ReadFails storage.pace content size e
  · obtain ⟨e, hfails⟩ := hreads
    exact ⟨_, .unread hopened hfails⟩
  · rw [not_exists] at hreads
    obtain hsize | hsize := Nat.lt_or_ge content.length size
    · exact ⟨_, .ended hopened hreads hsize⟩
    · exact ⟨_, .whole hopened hreads hsize⟩

theorem exists_promised (path : String) (hnatural : ReportsNatural storage) :
    ∃ outcome, Promised storage path outcome := by
  cases hopen : storage.openFile (FilePath.ofText path) with
  | error e => exact ⟨_, .unopened hopen⟩
  | ok content =>
    obtain ⟨e, hsized⟩ | ⟨size, hopened⟩ := opened_cases hnatural hopen
    · exact ⟨_, .unsized hopen hsized⟩
    · exact exists_promised_of_opened hopened

/-- Every failure that is promised can be gone on from. -/
theorem isRecoverable_of_promised (h : Promised storage path (.error e)) :
    e.isRecoverable = true := by
  cases h with
  | _ => rfl

theorem fallsBack_of_promised (h : Promised storage path (load storage path)) :
    FallsBack storage path where
  loaded := by
    intro reply hload
    unfold loadOrEmpty
    rw [hload]
    exact ⟨_, rfl, rfl⟩
  missing := by
    intro e hload
    rw [hload] at h
    unfold loadOrEmpty
    rw [hload]
    dsimp only
    rw [if_pos (isRecoverable_of_promised h)]
    exact ⟨_, rfl, rfl⟩

theorem not_fallsBack (hload : load storage path = .error e) (hbroken : e.isRecoverable = false) :
    ¬ FallsBack storage path := by
  intro hfalls
  obtain ⟨record, hresult, -⟩ := hfalls.missing e hload
  unfold loadOrEmpty at hresult
  rw [hload] at hresult
  dsimp only at hresult
  rw [hbroken] at hresult
  contradiction

end Load

/-- Whatever size the system reports and however it hands out the file, loading ends in what is
promised, and with a fallback in a reply and one record, just if there is room for that size. -/
theorem load_exact_iff {storage : Storage} {path : String} (hnull : Char.ofNat 0 ∉ path.toList)
    (hnatural : ReportsNatural storage) :
    ((∀ outcome, load storage path = outcome ↔ Promised storage path outcome) ↔
      Affordable storage path) ∧
    (FallsBack storage path ↔ Affordable storage path) := by
  have hbreaks (hroom : ¬ Affordable storage path) :
      ∃ e, load storage path = .error e ∧ e.isRecoverable = false := by
    simp only [Affordable, not_forall] at hroom
    obtain ⟨content, size, hopened, hroom⟩ := hroom
    exact load_of_no_room hnull hopened hroom
  have hkeeps (hroom : Affordable storage path) : Promised storage path (load storage path) := by
    obtain ⟨outcome, hpromised⟩ := exists_promised path hnatural
    rwa [load_of_promised hnull hroom hpromised]
  refine ⟨⟨fun hexact => ?_, fun hroom outcome => ⟨?_, load_of_promised hnull hroom⟩⟩,
    fun hfalls => ?_, fun hroom => fallsBack_of_promised (hkeeps hroom)⟩
  · by_contra hroom
    obtain ⟨e, hload, hbroken⟩ := hbreaks hroom
    rw [isRecoverable_of_promised ((hexact _).1 hload)] at hbroken
    contradiction
  · rintro rfl
    exact hkeeps hroom
  · by_contra hroom
    obtain ⟨e, hload, hbroken⟩ := hbreaks hroom
    exact not_fallsBack hload hbroken hfalls

/-- A file of five bytes, handed out two bytes first and then byte by byte, for which `size` is
reported. -/
def misreported (size : Int) : Storage where
  tree := { entries := [(["d", "r"], .file (Bytes.ofText "short"))] }
  reportedSize := some size
  pace := fun read => .ok (2 - read)

theorem opened_misreported (size : Nat) :
    Opened (misreported size) "./d//r" (Bytes.ofText "short") size where
  opens := rfl
  sized := rfl
  reported := rfl

theorem not_readFails_misreported (size : Nat) (e : SysError) :
    ¬ ReadFails (misreported size).pace (Bytes.ofText "short") size e := by
  rintro ⟨calls, received, -, -, hpace⟩
  contradiction

/-- A size below and a size beyond the end of the file. -/
theorem load_exact_misreported :
    load (misreported 4) "./d//r" = .ok (Bytes.ofText "shor") ∧
      load (misreported 7) "./d//r" = .error (.incomplete ⟨"", ["d", "r"]⟩ 7 5) ∧
      FallsBack (misreported 7) "./d//r" := by
  have hnull : Char.ofNat 0 ∉ "./d//r".toList := by decide
  have hnatural (size : Nat) : ReportsNatural (misreported size) := by
    rintro n ⟨⟩
    exact Int.natCast_nonneg size
  have haffordable {size : Nat} (hsize : size ≤ 7) : Affordable (misreported size) "./d//r" := by
    intro content reported hopened
    have hreported : size = reported := Int.ofNat_inj.1 hopened.reported
    have hmemory : (misreported size).memory = 0x400000000 := rfl
    unfold HasRoom
    omega
  have hshort := (load_exact_iff hnull (hnatural 4)).1.2 (haffordable (by decide))
  have hlong := load_exact_iff hnull (hnatural 7)
  refine ⟨(hshort _).2 ?_, (hlong.1.2 (haffordable (by decide)) _).2 ?_,
    hlong.2.2 (haffordable (by decide))⟩
  · exact .whole (opened_misreported 4) (not_readFails_misreported 4) (by decide)
  · exact .ended (opened_misreported 7) (not_readFails_misreported 7) (by decide)

/-- For the largest size that 64 bits can count there is no room, and no fallback either. -/
theorem vast_size_breaks_off :
    Promised (misreported 0x7fffffffffffffff) "./d//r"
        (.error (.incomplete ⟨"", ["d", "r"]⟩ 0x7fffffffffffffff 5)) ∧
      load (misreported 0x7fffffffffffffff) "./d//r" = .error .outOfMemory ∧
      loadOrEmpty (misreported 0x7fffffffffffffff) "./d//r" = .error .outOfMemory := by
  have hopened := opened_misreported 0x7fffffffffffffff
  have hload : load (misreported 0x7fffffffffffffff) "./d//r" = .error .outOfMemory :=
    load_of_opened (by decide) hopened
  refine ⟨.ended hopened (not_readFails_misreported 0x7fffffffffffffff) (by decide), hload, ?_⟩
  unfold loadOrEmpty
  rw [hload]
  rfl

end CannedReply.Proofs.ReplyFile.Exact
