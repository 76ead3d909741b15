import CannedReply.Proofs.Latin1
import CannedReply.Request
/-!
# What a head is

The request line and the field lines as statements about their bytes, and from them all that the
parser can end in.  A target without a path is the one failure that is no `HeadError`.
-/

namespace CannedReply.Proofs.Request.Head

open CannedReply.Request
open CannedReply.Proofs.Cut
open CannedReply.Proofs.Latin1

/-! ## Request lines -/

theorem not_mem_of_mem_splitOn {α : Type} [BEq α] [LawfulBEq α] {x : α} {s part : List α}
    (h : part ∈ s.splitOn x) : x ∉ part := by
  induction s generalizing part with
  | nil =>
    rw [List.splitOn_nil, List.mem_singleton] at h
    simp [h]
  | cons y s ih =>
    rw [List.splitOn_cons_eq_if_modifyHead] at h
    split at h
    · obtain rfl | hpart := List.mem_cons.1 h
      · simp
      · exact ih hpart
    · rename_i hne
      obtain ⟨first, parts, hparts⟩ := List.exists_cons_of_ne_nil (List.splitOn_ne_nil x s)
      rw [hparts, List.modifyHead_cons] at h
      obtain rfl | hpart := List.mem_cons.1 h
      · have hfirst : x ∉ first := ih (by simp [hparts])
        simp only [beq_iff_eq] at hne
        simp [hfirst, Ne.symm hne]
      · exact ih (by simp [hparts, hpart])

theorem splitOn_eq_triple_iff {α : Type} [BEq α] [LawfulBEq α] {x : α} {s a b c : List α} :
    s.splitOn x = [a, b, c] ↔ s = a ++ x :: (b ++ x :: c) ∧ x ∉ a ∧ x ∉ b ∧ x ∉ c := by
  constructor
  · intro h
    have hpart {part : List α} (hmem : part ∈ [a, b, c]) : x ∉ part :=
      not_mem_of_mem_splitOn (h ▸ hmem)
    refine ⟨?_, hpart (by simp), hpart (by simp), hpart (by simp)⟩
    have hjoin : [x].intercalate (s.splitOn x) = s := List.intercalate_splitOn x
    rw [← hjoin, h]
    simp
  · rintro ⟨rfl, ha, hb, hc⟩
    rw [List.splitOn_append_cons_self_of_not_mem ha, List.splitOn_append_cons_self_of_not_mem hb,
      List.splitOn_eq_singleton hc]

theorem ofBytes?_eq_some_iff {s : Bytes} {version : Version} :
    Version.ofBytes? s = some version ↔ s = Bytes.ofText version.text := by
  unfold Version.ofBytes?
  constructor
  · intro h
    split at h
    · rename_i hs
      obtain rfl := Option.some.inj h
      exact beq_iff_eq.1 hs
    · split at h
      · rename_i hs
        obtain rfl := Option.some.inj h
        exact beq_iff_eq.1 hs
      · contradiction
  · rintro rfl
    cases version <;> decide

/-- A request line with its parts. -/
structure IsRequestLine (line : Bytes) (parts : Line) : Prop where
  spelled : line = parts.method ++ 32 :: (parts.target ++ 32 :: Bytes.ofText parts.version.text)
  method : parts.method ≠ [] ∧ 32 ∉ parts.method
  target : parts.target ≠ [] ∧ 32 ∉ parts.target
  short : parts.target.length ≤ maxTargetLength

theorem text_ne_nil (version : Version) : Bytes.ofText version.text ≠ [] := by
  cases version <;> decide

theorem space_not_mem_text (version : Version) : 32 ∉ Bytes.ofText version.text := by
  cases version <;> decide

theorem parseLine_eq_ok_iff {line : Bytes} {parts : Line} :
    Line.parse line = .ok parts ↔ IsRequestLine line parts := by
  unfold Line.parse
  constructor
  · intro h
    split at h
    · rename_i method target version hsplit
      obtain ⟨hline, hmethod, htarget, -⟩ := splitOn_eq_triple_iff.1 hsplit
      split at h
      · contradiction
      · rename_i hempty
        simp only [Bool.or_eq_true, List.isEmpty_iff, not_or] at hempty
        split at h
        · contradiction
        · rename_i hversion
          split at h
          · contradiction
          · rename_i hlength
            obtain rfl := Except.ok.inj h
            rw [ofBytes?_eq_some_iff.1 hversion] at hline
            exact ⟨hline, ⟨hempty.1.1, hmethod⟩, ⟨hempty.1.2, htarget⟩, Nat.not_lt.1 hlength⟩
    · contradiction
  · rintro ⟨hline, hmethod, htarget, hshort⟩
    have hsplit := splitOn_eq_triple_iff.2
      ⟨hline, hmethod.2, htarget.2, space_not_mem_text parts.version⟩
    rw [hsplit]
    dsimp only
    rw [if_neg (by simp [hmethod.1, htarget.1, text_ne_nil]), ofBytes?_eq_some_iff.2 rfl]
    dsimp only
    rw [if_neg (Nat.not_lt.2 hshort)]

/-! ## Field lines -/

/-- A name that is not blank, and a value behind the first colon. -/
def IsFieldLine (line : Bytes) : Prop :=
  ∃ name value, line = name ++ 58 :: value ∧ 58 ∉ name ∧ ∃ b ∈ name, Latin1.isBlank b = false

theorem trim_eq_nil_iff {s : Bytes} : Latin1.trim s = [] ↔ ∀ b ∈ s, Latin1.isBlank b = true :=
  all_blank_iff

theorem parseField_isOk_iff {line : Bytes} :
    (∃ field, parseField line = .ok field) ↔ IsFieldLine line := by
  unfold parseField IsFieldLine
  constructor
  · rintro ⟨field, h⟩
    split at h
    · contradiction
    · rename_i name value hcut
      obtain ⟨hline, hname⟩ := cut?_singleton_eq_some_iff.1 hcut
      refine ⟨name, value, hline, hname, ?_⟩
      by_cases hblank : Latin1.trim name = []
      · simp [hblank, Latin1.lowerAll] at h
      · rw [trim_eq_nil_iff] at hblank
        simpa using hblank
  · rintro ⟨name, value, hline, hname, b, hb, hblank⟩
    rw [cut?_singleton_eq_some_iff.2 ⟨hline, hname⟩]
    dsimp only
    split
    · rename_i hempty
      have htrim := trim_eq_nil_iff.1 (List.map_eq_nil_iff.1 hempty) b hb
      rw [hblank] at htrim
      contradiction
    · exact ⟨_, rfl⟩

theorem readFields_isOk_iff (fields : OrderedMap String String) {lines : List Bytes} :
    (∃ read, readFields fields lines = .ok read) ↔
      ∀ line ∈ lines, line ≠ [] → IsFieldLine line := by
  fun_induction readFields fields lines with
  | case1 => simp
  | case2 fields rest ih => simp [ih]
  | case3 fields line rest hline e hparse =>
    have hnot : ¬ IsFieldLine line := by
      rw [← parseField_isOk_iff, hparse]
      simp
    simp_all
  | case4 fields line rest hline name value hparse ih =>
    have hfield : IsFieldLine line := parseField_isOk_iff.1 ⟨_, hparse⟩
    simp [ih, hfield]

/-! ## Heads -/

/-- The lines of the head of a message. -/
def headLines (message : Bytes) : List Bytes :=
  Bytes.lines (Delimiter.before Bytes.emptyLine message)

/-- A message whose request line is in order, with the parts of that line and the field lines. -/
def HasRequestLine (message : Bytes) (parts : Line) (fieldLines : List Bytes) : Prop :=
  ∃ first, headLines message = first :: fieldLines ∧ IsRequestLine first parts

variable {message : Bytes} {parts : Line} {fieldLines : List Bytes}

theorem IsRequestLine.ne_nil {line : Bytes} (h : IsRequestLine line parts) : line ≠ [] := by
  rw [h.spelled]
  simp

theorem HasRequestLine.ne_nil (h : HasRequestLine message parts fieldLines) : message ≠ [] := by
  rintro rfl
  obtain ⟨first, hlines, hline⟩ := h
  obtain ⟨rfl, -⟩ := List.cons.inj (hlines : [[]] = first :: fieldLines)
  exact hline.ne_nil rfl

/-- A message whose request line is not in order is no request, and its target is not looked at. -/
theorem parse_of_no_requestLine (message : Bytes)
    (h : ∀ parts fieldLines, ¬ HasRequestLine message parts fieldLines) :
    ∃ e, parse message = .error (.head e) := by
  unfold parse
  change ∃ e, ofLines (headLines message) = .error (.head e)
  match hlines : headLines message with
  | [] => exact ⟨_, rfl⟩
  | [] :: fieldLines => exact ⟨_, rfl⟩
  | (b :: bs) :: fieldLines =>
    unfold ofLines
    dsimp only
    cases hparse : Line.parse (b :: bs) with
    | error e => exact ⟨e, rfl⟩
    | ok parts => exact absurd ⟨_, hlines, parseLine_eq_ok_iff.1 hparse⟩ (h parts fieldLines)

/-- Behind a request line that is in order the target decides first, and then the field lines. -/
theorem parse_of_requestLine (h : HasRequestLine message parts fieldLines) :
    parse message =
      match Target.path parts.target with
      | .error e => .error (.target e)
      | .ok path =>
        match readFields .empty fieldLines with
        | .error e => .error (.head e)
        | .ok fields =>
          .ok { method := Latin1.decode parts.method
                path := Latin1.decode path
                target := Latin1.decode parts.target
                version := parts.version
                fields } := by
  obtain ⟨first, hlines, hline⟩ := h
  obtain ⟨b, bs, rfl⟩ := List.exists_cons_of_ne_nil hline.ne_nil
  unfold parse
  change ofLines (headLines message) = _
  rw [hlines]
  unfold ofLines
  dsimp only
  rw [parseLine_eq_ok_iff.2 hline]
  simp only [Except.mapError, bind, Except.bind]
  cases Target.path parts.target with
  | error e => rfl
  | ok path =>
    cases readFields .empty fieldLines with
    | error e => rfl
    | ok fields => rfl

theorem parse_eq_target_iff {e : Target.Error} :
    parse message = .error (.target e) ↔
      ∃ parts fieldLines, HasRequestLine message parts fieldLines ∧
        Target.path parts.target = .error e := by
  constructor
  · intro h
    by_cases hline : ∃ parts fieldLines, HasRequestLine message parts fieldLines
    · obtain ⟨parts, fieldLines, hline⟩ := hline
      refine ⟨parts, fieldLines, hline, ?_⟩
      rw [parse_of_requestLine hline] at h
      split at h
      · rename_i hpath
        cases h
        exact hpath
      · split at h <;> simp at h
    · obtain ⟨e', he⟩ := parse_of_no_requestLine message
        fun parts fieldLines hhas => hline ⟨parts, fieldLines, hhas⟩
      rw [he] at h
      simp at h
  · rintro ⟨parts, fieldLines, hline, hpath⟩
    rw [parse_of_requestLine hline, hpath]

end CannedReply.Proofs.Request.Head
