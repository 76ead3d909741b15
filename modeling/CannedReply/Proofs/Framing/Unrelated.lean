import CannedReply.Proofs.Framing.Fields
import CannedReply.Proofs.Framing.HeadLimit
/-!
# Lines that frame nothing

The framing looks up two fields of a head.  A line with another name can stand anywhere below the
request line without any effect on where the body ends or why there is none.  Main statement:
`unrelated_line_keeps_framing`.
-/

namespace CannedReply.Proofs.Framing.Unrelated

open CannedReply.Framing
open CannedReply.Proofs.Cut
open CannedReply.Proofs.Framing.ChunkGrammar
open CannedReply.Proofs.Framing.Fields
open CannedReply.Proofs.Framing.HeadLimit

/-- A field line whose name is none of those that the framing looks up. -/
structure IsUnrelated (line : Bytes) : Prop where
  colonLine : IsColonLine line
  noLength : nameOf line ≠ Head.contentLengthName
  noEncoding : nameOf line ≠ Head.transferEncodingName

/-- The verdicts on two buffers that start with `head` and `head'`: messages with the same body,
or nothing yet, or the same error. -/
inductive SameFraming (head head' : Bytes) :
    Except Error (Option Bytes) → Except Error (Option Bytes) → Prop where
  | complete (body : Bytes) : SameFraming head head'
      (.ok (some (head ++ (Bytes.emptyLine ++ body))))
      (.ok (some (head' ++ (Bytes.emptyLine ++ body))))
  | incomplete : SameFraming head head' (.ok none) (.ok none)
  | refused (e : Error) : SameFraming head head' (.error e) (.error e)

/-- A message on one side is a message with the same body on the other. -/
theorem SameFraming.eq_complete {head head' body : Bytes} {verdict : Except Error (Option Bytes)}
    (h : SameFraming head head' (.ok (some (head ++ (Bytes.emptyLine ++ body)))) verdict) :
    verdict = .ok (some (head' ++ (Bytes.emptyLine ++ body))) := by
  generalize hmessage : head ++ (Bytes.emptyLine ++ body) = message at h
  cases h with
  | complete body' =>
    rw [List.append_cancel_left_eq, List.append_cancel_left_eq] at hmessage
    rw [hmessage]

/-! ## Looking up a field -/

theorem firstValue?_cons {line : Bytes} (hne : line ≠ []) (name : Bytes) (rest : List Bytes) :
    Head.firstValue? name (line :: rest) =
      match Delimiter.cut? [58] line with
      | none => .error .malformedHeader
      | some (key, value) =>
        if Latin1.lowerAll (Latin1.trim key) == name then .ok (some (Latin1.trim value))
        else Head.firstValue? name rest := by
  cases line with
  | nil => contradiction
  | cons b line => rfl

theorem firstValue?_of_other {name line : Bytes} (hcolon : 58 ∈ line) (hother : nameOf line ≠ name)
    (rest : List Bytes) : Head.firstValue? name (line :: rest) = Head.firstValue? name rest := by
  rw [firstValue?_cons (List.ne_nil_of_mem hcolon), cut?_colon hcolon]
  have hkey : ¬ (nameOf line == name) = true := by simpa using hother
  exact if_neg hkey

/-- The lines before the new one are looked at as before: each of them is passed over, refused or
decides, and only then the line is met. -/
theorem firstValue?_insert {name line : Bytes} (hcolon : 58 ∈ line) (hother : nameOf line ≠ name)
    (front back : List Bytes) :
    Head.firstValue? name (front ++ line :: back) = Head.firstValue? name (front ++ back) := by
  induction front with
  | nil => exact firstValue?_of_other hcolon hother back
  | cons first front ih =>
    rw [List.cons_append, List.cons_append]
    by_cases hempty : first = []
    · subst hempty
      exact ih
    · rw [firstValue?_cons hempty, firstValue?_cons hempty, ih]

/-! ## Heads with a line more -/

section Heads

variable {first line rest : Bytes} {front back : List Bytes}

theorem length_headBytes (first : Bytes) (lines : List Bytes) :
    (headBytes first lines).length = first.length + (lines.map (·.length + 2)).sum := by
  unfold headBytes
  induction lines generalizing first with
  | nil => simp
  | cons next lines ih =>
    rw [List.intercalate_cons_cons, List.length_append, List.length_append, ih]
    simp only [Bytes.crlf, List.length_cons, List.length_nil, List.map_cons, List.sum_cons]
    omega

theorem length_headBytes_insert (first line : Bytes) (front back : List Bytes) :
    (headBytes first (front ++ line :: back)).length =
      (headBytes first (front ++ back)).length + line.length + 2 := by
  simp only [length_headBytes, List.map_append, List.sum_append, List.map_cons, List.sum_cons]
  omega

/-- A body is framed by the fields of its head alone, and the new line is none of them. -/
theorem bodyLength?_insert (hline : IsUnrelated line) (hfirst : Unbroken first)
    (hlines : ∀ l ∈ front ++ back, Unbroken l) (rest : Bytes) :
    bodyLength? (headBytes first (front ++ line :: back)) rest =
      bodyLength? (headBytes first (front ++ back)) rest := by
  have hmore : ∀ l ∈ front ++ line :: back, Unbroken l := by
    intro l hl
    obtain hfront | rfl | hback : l ∈ front ∨ l = line ∨ l ∈ back := by simpa using hl
    · exact hlines l (List.mem_append_left back hfront)
    · exact hline.colonLine.1
    · exact hlines l (List.mem_append_right front hback)
  have hcolon : 58 ∈ line := hline.colonLine.2
  unfold bodyLength? Head.transferEncoding? Head.contentLength
  rw [fieldLines_joined hfirst hmore, fieldLines_joined hfirst hlines,
    firstValue?_insert hcolon hline.noEncoding, firstValue?_insert hcolon hline.noLength]

/-- Below the first line a head has no empty line. -/
theorem ne_nil_of_cut {first rest : Bytes} {lines : List Bytes}
    (h : Delimiter.cut? Bytes.emptyLine (headBytes first lines ++ (Bytes.emptyLine ++ rest)) =
      some (headBytes first lines, rest)) {l : Bytes} (hl : l ∈ lines) : l ≠ [] := by
  rintro rfl
  obtain ⟨front, back, rfl⟩ := List.append_of_mem hl
  have hearlier : headBytes first (front ++ [] :: back) ++ (Bytes.emptyLine ++ rest) =
      headBytes first front ++
        (Bytes.emptyLine ++ (back.flatMap (· ++ Bytes.crlf) ++ (Bytes.crlf ++ rest))) := by
    rw [emptyLine_eq, emptyLine_eq, headBytes, headBytes, ← List.append_assoc,
      ← List.append_assoc (Bytes.crlf.intercalate (first :: front)), intercalate_append_crlf,
      intercalate_append_crlf]
    simp
  have hle := length_le_of_cut? h hearlier
  rw [length_headBytes_insert, length_headBytes, length_headBytes] at hle
  simp only [List.map_append, List.sum_append] at hle
  omega

end Heads

/-! ## The verdict -/

theorem message?_of_head {head rest : Bytes} (hshort : head.length + 4 ≤ maxHeadBytes)
    (hcut : Delimiter.cut? Bytes.emptyLine (head ++ (Bytes.emptyLine ++ rest)) =
      some (head, rest)) :
    message? (head ++ (Bytes.emptyLine ++ rest)) =
      (bodyLength? head rest).map fun length =>
        length.map fun n => head ++ (Bytes.emptyLine ++ rest.take n) := by
  have htake (n : Nat) : (head ++ (Bytes.emptyLine ++ rest)).take (head.length + 4 + n) =
      head ++ (Bytes.emptyLine ++ rest.take n) := by
    have hbehind : (Bytes.emptyLine ++ rest).take (4 + n) = Bytes.emptyLine ++ rest.take n :=
      @List.take_length_add_append _ Bytes.emptyLine rest n
    rw [Nat.add_assoc, List.take_length_add_append, hbehind]
  unfold message?
  rw [hcut]
  dsimp only
  rw [if_neg (Nat.not_lt.2 hshort)]
  simp only [htake]

/-- A field line that is no framing field, put anywhere below the request line of a complete head,
changes nothing but the head: a message keeps its body, what is incomplete stays incomplete, and
an error stays the same error. -/
theorem unrelated_line_keeps_framing {buffer head first line : Bytes} {front back : List Bytes}
    (hhead : EndsHead head buffer) (hlines : Bytes.lines head = first :: (front ++ back))
    (hline : IsUnrelated line)
    (hshort : (headBytes first (front ++ line :: back)).length + 4 ≤ maxHeadBytes) :
    SameFraming head (headBytes first (front ++ line :: back)) (message? buffer)
      (message? (headBytes first (front ++ line :: back) ++ buffer.drop head.length)) := by
  obtain ⟨rest, hcut⟩ := endsHead_iff.1 hhead
  have hbuffer := Delimiter.append_of_cut? hcut
  obtain ⟨hfirst, hunbroken⟩ :
      Unbroken first ∧ ∀ l ∈ front ++ back, Unbroken l := by
    apply List.forall_mem_cons.1
    intro l hl
    exact unbroken_of_mem_lines (hlines ▸ hl)
  have hjoined : head = headBytes first (front ++ back) := by
    obtain ⟨first', lines, rfl, hall⟩ := exists_lines head
    rw [lines_intercalate hall] at hlines
    rw [hlines, headBytes]
  subst hjoined
  rw [hbuffer] at hcut ⊢
  rw [List.drop_left]
  have hsolid : ∀ l ∈ front ++ line :: back, Unbroken l ∧ l ≠ [] := by
    intro l hl
    obtain hold | rfl : l ∈ front ++ back ∨ l = line := by
      simp only [List.mem_append, List.mem_cons] at hl ⊢
      tauto
    · exact ⟨hunbroken l hold, ne_nil_of_cut hcut hold⟩
    · exact ⟨hline.colonLine.1, List.ne_nil_of_mem hline.colonLine.2⟩
  have hshort' : (headBytes first (front ++ back)).length + 4 ≤ maxHeadBytes := by
    rw [length_headBytes_insert] at hshort
    omega
  rw [message?_of_head hshort' hcut, message?_of_head hshort (cut?_joined hfirst hsolid rest),
    bodyLength?_insert hline hfirst hunbroken]
  cases bodyLength? (headBytes first (front ++ back)) rest with
  | error e => exact .refused e
  | ok length =>
    cases length with
    | none => exact .incomplete
    | some n => exact .complete (rest.take n)

/-- A line whose name only ends in one of the two names, in front of the field that frames. -/
theorem unrelated_line_keeps_framing_near_miss :
    let request := Bytes.ofText "POST / HTTP/1.1"
    let length := Bytes.ofText "Content-Length: 2"
    let line := Bytes.ofText "X-Transfer-Encoding: chunked"
    let body := Bytes.ofText "hi"
    let message (head : Bytes) := head ++ (Bytes.emptyLine ++ body)
    EndsHead (headBytes request [length]) (message (headBytes request [length])) ∧
      IsUnrelated line ∧
      message? (message (headBytes request [length])) =
        .ok (some (message (headBytes request [length]))) ∧
      message? (message (headBytes request [line, length])) =
        .ok (some (message (headBytes request [line, length]))) := by
  intro request length line body message
  have hhead : EndsHead (headBytes request [length]) (message (headBytes request [length])) :=
    endsHead_iff.2 ⟨body, by decide⟩
  have hline : IsUnrelated line :=
    ⟨⟨unbroken_of_not_mem (by decide), by decide⟩, by decide, by decide⟩
  have hlines : Bytes.lines (headBytes request [length]) = request :: ([] ++ [length]) := by decide
  have hmessage : message? (message (headBytes request [length])) =
      .ok (some (message (headBytes request [length]))) := by
    decide
  have hsame := unrelated_line_keeps_framing hhead hlines hline (by decide)
  rw [hmessage] at hsame
  exact ⟨hhead, hline, hmessage, hsame.eq_complete⟩

end CannedReply.Proofs.Framing.Unrelated
