import CannedReply.Proofs.Framing.ChunkGrammar
/-!
# Heads and their fields

A head is a request line and below it lines with a colon, joined by CR LF.  Its lines are found
again, its empty line is the first one of the message, and the framing fields are those that come
first under their names.
-/

namespace CannedReply.Proofs.Framing.Fields

open CannedReply.Framing
open CannedReply.Proofs.Cut
open CannedReply.Proofs.Framing.ChunkGrammar
open CannedReply.Proofs.Framing.Growth
open CannedReply.Proofs.Numeral.Grammar

/-! ## Lines -/

private theorem linesFrom_cons {done : List Bytes} {line rest : Bytes} {b : UInt8}
    (h : b = 13 → rest.head? ≠ some 10) :
    Bytes.linesFrom done line (b :: rest) = Bytes.linesFrom done (b :: line) rest := by
  rw [Bytes.linesFrom]
  rintro tail rfl rfl
  exact h rfl rfl

theorem unbroken_tail {b : UInt8} {line : Bytes} (h : Unbroken (b :: line)) : Unbroken line :=
  h.of_isInfix (List.suffix_cons b line).isInfix

/-- The byte behind the CR of a line is no LF. -/
theorem head?_ne_of_unbroken {line : Bytes} (h : Unbroken (13 :: line)) : line.head? ≠ some 10 := by
  intro hhead
  cases line with
  | nil => contradiction
  | cons b line =>
    obtain rfl : b = 10 := by simpa using hhead
    exact h ⟨[], line, rfl⟩

theorem linesFrom_line {line : Bytes} (h : Unbroken line) (done : List Bytes)
    (passed rest : Bytes) :
    Bytes.linesFrom done passed (line ++ (Bytes.crlf ++ rest)) =
      Bytes.linesFrom ((passed.reverse ++ line) :: done) [] rest := by
  induction line generalizing passed with
  | nil =>
    rw [List.append_nil]
    rfl
  | cons b line ih =>
    have hnext : b = 13 → (line ++ (Bytes.crlf ++ rest)).head? ≠ some 10 := by
      rintro rfl
      have hhead := head?_ne_of_unbroken h
      cases line with
      | nil => simp [Bytes.crlf]
      | cons c line => simpa using hhead
    rw [List.cons_append, linesFrom_cons hnext, ih (unbroken_tail h)]
    simp

theorem linesFrom_last {line : Bytes} (h : Unbroken line) (done : List Bytes) (passed : Bytes) :
    Bytes.linesFrom done passed line = done.reverse ++ [passed.reverse ++ line] := by
  induction line generalizing passed with
  | nil => simp [Bytes.linesFrom]
  | cons b line ih =>
    have hnext : b = 13 → line.head? ≠ some 10 := by
      rintro rfl
      exact head?_ne_of_unbroken h
    rw [linesFrom_cons hnext, ih (unbroken_tail h)]
    simp

/-- Lines that are joined are found again. -/
theorem lines_intercalate {line : Bytes} {rest : List Bytes}
    (h : ∀ l ∈ line :: rest, Unbroken l) :
    Bytes.lines (Bytes.crlf.intercalate (line :: rest)) = line :: rest := by
  suffices hfrom : ∀ done, Bytes.linesFrom done [] (Bytes.crlf.intercalate (line :: rest)) =
      done.reverse ++ line :: rest from hfrom []
  induction rest generalizing line with
  | nil =>
    intro done
    rw [List.intercalate_singleton, linesFrom_last (h line (by simp))]
    rfl
  | cons next rest ih =>
    intro done
    rw [List.intercalate_cons_cons, List.append_assoc, linesFrom_line (h line (by simp)),
      ih fun l hl => h l (by simp [List.mem_cons.1 hl])]
    simp

/-- Any bytes are lines that are joined. -/
theorem exists_lines (s : Bytes) :
    ∃ line rest, s = Bytes.crlf.intercalate (line :: rest) ∧ ∀ l ∈ line :: rest, Unbroken l := by
  induction hlen : s.length using Nat.strong_induction_on generalizing s with
  | _ n ih =>
    subst hlen
    cases hline : Bytes.line? s with
    | none =>
      refine ⟨s, [], (List.intercalate_singleton).symm, ?_⟩
      simpa using line?_eq_none_iff.1 hline
    | some cut =>
      obtain ⟨line, tail⟩ := cut
      obtain ⟨hs, hunbroken⟩ := line?_eq_some_iff.1 hline
      obtain ⟨next, rest, htail, hrest⟩ := ih _ (Bytes.length_lt_of_line? hline) tail rfl
      refine ⟨line, next :: rest, ?_, List.forall_mem_cons.2 ⟨hunbroken, hrest⟩⟩
      rw [List.intercalate_cons_cons, ← htail, List.append_assoc, hs]

theorem unbroken_of_mem_lines {s line : Bytes} (h : line ∈ Bytes.lines s) : Unbroken line := by
  obtain ⟨first, rest, rfl, hunbroken⟩ := exists_lines s
  rw [lines_intercalate hunbroken] at h
  exact hunbroken line h

/-! ## Heads -/

/-- The bytes of a head. -/
def headBytes (requestLine : Bytes) (fields : List Bytes) : Bytes :=
  Bytes.crlf.intercalate (requestLine :: fields)

structure IsHead (requestLine : Bytes) (fields : List Bytes) : Prop where
  unbroken : Unbroken requestLine
  colons : ∀ field ∈ fields, IsColonLine field
  short : (headBytes requestLine fields).length + 4 ≤ maxHeadBytes

/-- No line end stands before the end of the first line. -/
theorem length_le_of_crlf {line s front rest : Bytes} (h : Unbroken line)
    (hsame : line ++ (Bytes.crlf ++ s) = front ++ (Bytes.crlf ++ rest)) :
    line.length ≤ front.length := by
  have hline : Bytes.line? (line ++ (Bytes.crlf ++ s)) = some (line, s) :=
    line?_eq_some_iff.2 ⟨rfl, h⟩
  exact length_le_of_cut? hline hsame

/-- Joined lines in front of a line end start with the first of them and its line end. -/
theorem exists_intercalate_eq (line : Bytes) (lines : List Bytes) (rest : Bytes) :
    ∃ tail, Bytes.crlf.intercalate (line :: lines) ++ (Bytes.crlf ++ rest) =
      line ++ (Bytes.crlf ++ tail) := by
  cases lines with
  | nil => exact ⟨rest, by rw [List.intercalate_singleton]⟩
  | cons next lines =>
    refine ⟨Bytes.crlf.intercalate (next :: lines) ++ (Bytes.crlf ++ rest), ?_⟩
    rw [List.intercalate_cons_cons, List.append_assoc, List.append_assoc]

/-- Lines that are joined, each with a line end behind it. -/
theorem intercalate_append_crlf (line : Bytes) (lines : List Bytes) :
    Bytes.crlf.intercalate (line :: lines) ++ Bytes.crlf =
      line ++ (Bytes.crlf ++ lines.flatMap (· ++ Bytes.crlf)) := by
  induction lines generalizing line with
  | nil => simp
  | cons next lines ih =>
    rw [List.intercalate_cons_cons, List.append_assoc, List.append_assoc, ih, List.flatMap_cons,
      List.append_assoc]

theorem emptyLine_eq (rest : Bytes) :
    Bytes.emptyLine ++ rest = Bytes.crlf ++ (Bytes.crlf ++ rest) :=
  rfl

/-- No empty line stands among lines that are joined, so the first one ends them. -/
theorem cut?_joined {first : Bytes} {lines : List Bytes} (h : Unbroken first)
    (hlines : ∀ l ∈ lines, Unbroken l ∧ l ≠ []) (rest : Bytes) :
    Delimiter.cut? Bytes.emptyLine (headBytes first lines ++ (Bytes.emptyLine ++ rest)) =
      some (headBytes first lines, rest) := by
  unfold headBytes
  induction lines generalizing first with
  | nil =>
    refine cut?_eq_some_iff.2 ⟨rfl, fun front rest' hsame => ?_⟩
    rw [List.intercalate_singleton, emptyLine_eq, emptyLine_eq] at hsame
    rw [List.intercalate_singleton]
    exact length_le_of_crlf h hsame
  | cons next lines ih =>
    obtain ⟨hnext, hne⟩ := hlines next (by simp)
    have hcut := ih hnext fun l hl => hlines l (by simp [hl])
    rw [List.intercalate_cons_cons, List.append_assoc, List.append_assoc]
    refine cut?_eq_some_iff.2 ⟨by simp, fun front rest' hsame => ?_⟩
    have hle : first.length ≤ front.length := by
      rw [emptyLine_eq rest'] at hsame
      exact length_le_of_crlf h hsame
    obtain ⟨more, rfl⟩ : first <+: front :=
      List.prefix_of_prefix_length_le ⟨_, hsame⟩ ⟨_, rfl⟩ hle
    rw [List.append_assoc, List.append_cancel_left_eq] at hsame
    match more with
    | [] =>
      -- An empty line here would leave no byte for the next line.
      obtain ⟨tail, htail⟩ := exists_intercalate_eq next lines (Bytes.crlf ++ rest)
      rw [List.nil_append, emptyLine_eq, emptyLine_eq, htail, List.append_cancel_left_eq] at hsame
      have hempty : next.length ≤ ([] : Bytes).length := length_le_of_crlf hnext hsame
      exact absurd (List.eq_nil_of_length_eq_zero (Nat.le_zero.1 hempty)) hne
    | [b] => simp [Bytes.crlf, Bytes.emptyLine] at hsame
    | b :: c :: more =>
      simp only [Bytes.crlf, List.cons_append, List.nil_append, List.cons.injEq] at hsame
      have hbehind := length_le_of_cut? hcut hsame.2.2
      simp only [List.length_append, Bytes.crlf, List.length_cons, List.length_nil] at hbehind ⊢
      omega

/-- The first empty line of a message ends its head. -/
theorem cut?_headBytes {requestLine : Bytes} {fields : List Bytes} (h : Unbroken requestLine)
    (hfields : ∀ field ∈ fields, IsColonLine field) (rest : Bytes) :
    Delimiter.cut? Bytes.emptyLine (headBytes requestLine fields ++ (Bytes.emptyLine ++ rest)) =
      some (headBytes requestLine fields, rest) := by
  refine cut?_joined h (fun field hfield => ?_) rest
  obtain ⟨hunbroken, hcolon⟩ := hfields field hfield
  exact ⟨hunbroken, List.ne_nil_of_mem hcolon⟩

/-! ## Fields -/

/-- The name of a field in small letters. -/
def nameOf (field : Bytes) : Bytes := Latin1.lowerAll (Latin1.trim (field.takeWhile (· != 58)))

/-- What follows the first colon of a field, without the white space around it. -/
def valueOf (field : Bytes) : Bytes := Latin1.trim (field.dropWhile (· != 58)).tail

/-- The value of the first field of that name. -/
def firstField? (name : Bytes) (fields : List Bytes) : Option Bytes :=
  (fields.find? fun field => nameOf field == name).map valueOf

/-- The first transfer encoding announces chunks. -/
def AnnouncesChunks (fields : List Bytes) : Prop :=
  ∃ value, firstField? Head.transferEncodingName fields = some value ∧
    Bytes.ofText "chunked" <:+: Latin1.lowerAll value

/-- The first content length is `length`, or there is none and `length` is zero. -/
def Declares (fields : List Bytes) (length : Nat) : Prop :=
  match firstField? Head.contentLengthName fields with
  | none => length = 0
  | some value => IsDecimal value length

theorem cut?_colon {field : Bytes} (h : 58 ∈ field) :
    Delimiter.cut? [58] field =
      some (field.takeWhile (· != 58), (field.dropWhile (· != 58)).tail) := by
  have hne : field.dropWhile (· != 58) ≠ [] := by
    rw [ne_eq, List.dropWhile_eq_nil_iff]
    intro hall
    simpa using hall 58 h
  obtain ⟨b, rest, hdrop⟩ := List.exists_cons_of_ne_nil hne
  have hb : b = 58 := by
    have hhead := List.head_dropWhile_not (· != 58) hne
    simpa [hdrop] using hhead
  refine cut?_singleton_eq_some_iff.2 ⟨?_, fun hmem => ?_⟩
  · have hjoin := List.takeWhile_append_dropWhile (p := (· != 58)) (l := field)
    rw [hdrop, hb] at hjoin
    rw [hdrop, List.tail_cons, hjoin]
  · simpa using List.mem_takeWhile_imp hmem

theorem firstValue?_eq (name : Bytes) {fields : List Bytes} (h : ∀ field ∈ fields, 58 ∈ field) :
    Head.firstValue? name fields = .ok (firstField? name fields) := by
  unfold firstField?
  induction fields with
  | nil => rfl
  | cons field fields ih =>
    have hcolon := h field (by simp)
    obtain ⟨b, bs, rfl⟩ := List.exists_cons_of_ne_nil (List.ne_nil_of_mem hcolon)
    have hturn : Head.firstValue? name ((b :: bs) :: fields) =
        if nameOf (b :: bs) == name then .ok (some (valueOf (b :: bs)))
        else Head.firstValue? name fields := by
      rw [Head.firstValue?, cut?_colon hcolon]
      · rfl
      · simp
    rw [hturn, ih fun field hfield => h field (by simp [hfield]), List.find?_cons]
    cases nameOf (b :: bs) == name <;> rfl

theorem isChunked_iff {encoding : Bytes} :
    isChunked encoding = true ↔ Bytes.ofText "chunked" <:+: encoding := by
  unfold isChunked Delimiter.occursIn
  rw [Option.isSome_iff_ne_none, ne_eq, cut?_eq_none_iff_isInfix, not_not]

/-! ## Values -/

/-- A transfer encoding that announces chunks. -/
def NamesChunks (encoding? : Option Bytes) : Prop :=
  ∃ value, encoding? = some value ∧ Bytes.ofText "chunked" <:+: Latin1.lowerAll value

/-- A content length of `n`; without one the length is zero. -/
def IsLength (length? : Option Bytes) (n : Nat) : Prop :=
  match length? with
  | none => n = 0
  | some value => IsDecimal value n

theorem isLength_unique {length? : Option Bytes} {n n' : Nat} (h : IsLength length? n)
    (h' : IsLength length? n') : n = n' := by
  cases length? with
  | none => exact h.trans h'.symm
  | some value =>
    have hn := decimal?_eq_some_iff.2 h
    rw [decimal?_eq_some_iff.2 h'] at hn
    simpa using hn.symm

section Values

variable {head : Bytes} {value? : Option Bytes}

/-- The first transfer encoding decides whether a body is chunked. -/
theorem exists_encoding
    (h : Head.firstValue? Head.transferEncodingName (Head.fieldLines head) = .ok value?) :
    ∃ encoding, Head.transferEncoding? head = .ok encoding ∧
      ((encoding.map isChunked).getD false = true ↔ NamesChunks value?) := by
  refine ⟨value?.map Latin1.lowerAll, ?_, ?_⟩
  · rw [Head.transferEncoding?, h]
    rfl
  · cases value? with
    | none => simp [NamesChunks]
    | some value => simp [NamesChunks, isChunked_iff]

/-- The first content length decides how long a body is. -/
theorem contentLength_eq_ok_iff
    (h : Head.firstValue? Head.contentLengthName (Head.fieldLines head) = .ok value?) {n : Nat} :
    Head.contentLength head = .ok n ↔ IsLength value? n := by
  unfold Head.contentLength IsLength
  rw [h]
  cases value? with
  | none => simp [eq_comm]
  | some value =>
    dsimp only
    rw [← decimal?_eq_some_iff]
    cases Numeral.decimal? value with
    | none => simp
    | some z =>
      dsimp only
      by_cases hneg : z < 0
      · rw [if_pos hneg]
        simp
        omega
      · rw [if_neg hneg]
        simp
        omega

end Values

section Head

variable {requestLine : Bytes} {fields : List Bytes}

theorem fieldLines_joined (hfirst : Unbroken requestLine)
    (hfields : ∀ field ∈ fields, Unbroken field) :
    Head.fieldLines (headBytes requestLine fields) = fields := by
  rw [Head.fieldLines, headBytes, lines_intercalate (List.forall_mem_cons.2 ⟨hfirst, hfields⟩),
    List.tail_cons]

theorem fieldLines_headBytes (h : IsHead requestLine fields) :
    Head.fieldLines (headBytes requestLine fields) = fields :=
  fieldLines_joined h.unbroken fun field hfield => (h.colons field hfield).1

theorem firstValue?_headBytes (h : IsHead requestLine fields) (name : Bytes) :
    Head.firstValue? name (Head.fieldLines (headBytes requestLine fields)) =
      .ok (firstField? name fields) := by
  rw [fieldLines_headBytes h]
  exact firstValue?_eq name fun field hfield => (h.colons field hfield).2

theorem announces_iff (h : IsHead requestLine fields) :
    AnnouncesChunks fields ↔ ∃ encoding,
      Head.transferEncoding? (headBytes requestLine fields) = .ok encoding ∧
        (encoding.map isChunked).getD false = true := by
  obtain ⟨encoding, hencoding, hchunked⟩ := exists_encoding (firstValue?_headBytes h _)
  rw [hencoding]
  simp only [Except.ok.injEq, exists_eq_left', hchunked]
  rfl

theorem contentLength_headBytes (h : IsHead requestLine fields) {length : Nat}
    (hlength : Declares fields length) :
    Head.contentLength (headBytes requestLine fields) = .ok length :=
  (contentLength_eq_ok_iff (firstValue?_headBytes h _)).2 hlength

theorem bodyLength?_of_chunks (h : IsHead requestLine fields) (hchunks : AnnouncesChunks fields)
    (rest : Bytes) : bodyLength? (headBytes requestLine fields) rest = Chunked.length? rest := by
  obtain ⟨encoding, hencoding, hchunked⟩ := (announces_iff h).1 hchunks
  rw [bodyLength?_eq, hencoding]
  dsimp only
  rw [if_pos hchunked]

theorem bodyLength?_of_length (h : IsHead requestLine fields) (hplain : ¬ AnnouncesChunks fields)
    {length : Nat} (hlength : Declares fields length) (hfits : length ≤ maxBodyBytes)
    (rest : Bytes) : bodyLength? (headBytes requestLine fields) rest =
      if rest.length < length then .ok none else .ok (some length) := by
  rw [bodyLength?_eq]
  cases hencoding : Head.transferEncoding? (headBytes requestLine fields) with
  | error e =>
    rw [Head.transferEncoding?, firstValue?_headBytes h] at hencoding
    contradiction
  | ok encoding =>
    have hnot : ¬ (encoding.map isChunked).getD false = true := fun hchunked =>
      hplain ((announces_iff h).2 ⟨encoding, hencoding, hchunked⟩)
    dsimp only
    rw [if_neg hnot, contentLength_headBytes h hlength]
    dsimp only
    rw [if_neg (Nat.not_lt.2 hfits)]

end Head

end CannedReply.Proofs.Framing.Fields
