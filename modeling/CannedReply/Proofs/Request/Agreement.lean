import CannedReply.Proofs.Framing.Stability
import CannedReply.Proofs.Request.RoundTrip
/-!
# One head, two views

The framing goes by the first field of a name and a request keeps the last one.  So the fields of a
request describe the body of its message whenever the two values lead to the same body, and for
every other head there is a message whose body they do not describe.
-/

namespace CannedReply.Proofs.Request.Agreement

open CannedReply.Framing
open CannedReply.Request
open CannedReply.Proofs.Cut
open CannedReply.Proofs.Framing.ChunkGrammar
open CannedReply.Proofs.Framing.Fields
open CannedReply.Proofs.Framing.Growth
open CannedReply.Proofs.Framing.Stability
open CannedReply.Proofs.Numeral.Grammar
open CannedReply.Proofs.Request.FieldMap
open CannedReply.Proofs.Request.Head

/-! ## Views -/

/-- What somebody takes for the transfer encoding and the content length of a head. -/
structure View where
  encoding : Option Bytes
  length : Option Bytes

namespace View

def Announces (v : View) : Prop := NamesChunks v.encoding

def Declares (v : View) (n : Nat) : Prop := IsLength v.length n

/-- The body is the one that goes with this view of its head. -/
def Describes (v : View) (body : Bytes) : Prop :=
  (v.Announces ∧ IsBody body) ∨ (¬ v.Announces ∧ v.Declares body.length)

/-- The views of a head that lead to the same body. -/
def Agree (v w : View) : Prop :=
  (v.Announces ∧ w.Announces) ∨
    (¬ v.Announces ∧ ¬ w.Announces ∧ ∃ n, v.Declares n ∧ w.Declares n)

/-- The view of somebody who stops at the first field of a name. -/
def first (lines : List Bytes) : View :=
  ⟨firstField? Head.transferEncodingName lines, firstField? Head.contentLengthName lines⟩

/-- The view of somebody for whom later fields replace earlier ones. -/
def last (lines : List Bytes) : View :=
  ⟨lastField? Head.transferEncodingName lines, lastField? Head.contentLengthName lines⟩

variable {v w : View}

theorem Agree.describes {body : Bytes} (h : Agree v w) (hv : v.Describes body) :
    w.Describes body := by
  obtain ⟨hchunks, hchunks'⟩ | ⟨hplain, hplain', n, hn, hn'⟩ := h
  · obtain ⟨-, hbody⟩ | ⟨hplain, -⟩ := hv
    · exact .inl ⟨hchunks', hbody⟩
    · contradiction
  · obtain ⟨hchunks, -⟩ | ⟨-, hlength⟩ := hv
    · contradiction
    · rw [isLength_unique hn hlength] at hn'
      exact .inr ⟨hplain', hn'⟩

end View

/-- What the framing goes by. -/
def framingView (head : Bytes) : View := .first (filled (Head.fieldLines head))

/-- What a request says of itself. -/
def ownView (r : Request) : View :=
  ⟨(r.fields.get? "transfer-encoding").bind fun text => (Latin1.encode text).toOption,
    (r.fields.get? "content-length").bind fun text => (Latin1.encode text).toOption⟩

theorem ownView_requestOf (parts : Line) (path : Bytes) (lines : List Bytes) :
    ownView (requestOf parts path (fieldsOf lines)) = .last (filled lines) := by
  have hown (name : Bytes) :
      (((OrderedMap.ofList ((fieldsOf lines).map shown)).get? (Latin1.decode name)).bind
        fun text => (Latin1.encode text).toOption) = lastField? name (filled lines) := by
    rw [get?_ofFields]
    cases lastField? name (filled lines) with
    | none => rfl
    | some value =>
      rw [Option.map_some, Option.bind_some, Latin1.encode_decode]
      rfl
  have hencoding := hown Head.transferEncodingName
  have hlength := hown Head.contentLengthName
  unfold ownView View.last requestOf
  rw [← hencoding, ← hlength]
  rfl

/-! ## What the framing does -/

section Framing

variable {head body : Bytes}

/-- The framing takes the body that the first fields describe. -/
theorem bodyLength?_eq_some_iff
    (hlines : ∀ line ∈ filled (Head.fieldLines head), IsFieldLine line) :
    bodyLength? head body = .ok (some body.length) ↔
      (framingView head).Describes body ∧
        ((framingView head).Announces ∨ body.length ≤ maxBodyBytes) := by
  obtain ⟨encoding, hencoding, hchunked⟩ := exists_encoding (firstValue?_of_fields _ hlines)
  have hlength {n : Nat} : Head.contentLength head = .ok n ↔ (framingView head).Declares n :=
    contentLength_eq_ok_iff (firstValue?_of_fields _ hlines)
  rw [bodyLength?_eq, hencoding]
  dsimp only
  unfold View.Describes
  by_cases hannounces : (framingView head).Announces
  · rw [if_pos (hchunked.2 hannounces), length?_eq_some_iff]
    simp [hannounces]
  · rw [if_neg fun h => hannounces (hchunked.1 h)]
    simp only [hannounces, false_and, not_false_eq_true, true_and, false_or]
    rw [← hlength]
    cases Head.contentLength head with
    | error e => simp
    | ok length =>
      dsimp only
      constructor
      · intro h
        split at h
        · contradiction
        · rename_i hlimit
          split at h
          · simp at h
          · obtain rfl : length = body.length := by simpa using h
            exact ⟨rfl, Nat.not_lt.1 hlimit⟩
      · rintro ⟨hlength, hlimit⟩
        obtain rfl := Except.ok.inj hlength
        rw [if_neg (Nat.not_lt.2 hlimit), if_neg (Nat.lt_irrefl _)]

end Framing

/-! ## Other bodies behind a head -/

/-- The framing takes just that body behind that head. -/
def Framed (head body : Bytes) : Prop :=
  message? (head ++ (Bytes.emptyLine ++ body)) = .ok (some (head ++ (Bytes.emptyLine ++ body)))

section Message

variable {buffer message head body other : Bytes} {r : Request}

theorem cut?_other (h : Delimiter.cut? Bytes.emptyLine message = some (head, body))
    (other : Bytes) :
    Delimiter.cut? Bytes.emptyLine (head ++ (Bytes.emptyLine ++ other)) = some (head, other) := by
  have hempty : Delimiter.cut? Bytes.emptyLine (head ++ (Bytes.emptyLine ++ [])) =
      some (head, []) := by
    apply cut?_of_append (t := body)
    rw [Delimiter.append_of_cut? h] at h
    simpa using h
  have hgrown := cut?_append hempty other
  simpa using hgrown

theorem framed_iff (hcut : Delimiter.cut? Bytes.emptyLine message = some (head, body)) :
    Framed head other ↔
      head.length + 4 ≤ maxHeadBytes ∧ bodyLength? head other = .ok (some other.length) := by
  have hother := cut?_other hcut other
  unfold Framed
  rw [message?_eq_some_iff]
  constructor
  · rintro ⟨head', body', rest, hcut', hlimit, hbody, hmessage⟩
    rw [hother] at hcut'
    obtain ⟨rfl, rfl⟩ := Prod.mk.inj (Option.some.inj hcut')
    obtain rfl : rest = [] := by simpa using hmessage
    rw [List.append_nil] at hbody ⊢
    exact ⟨hlimit, hbody⟩
  · rintro ⟨hlimit, hbody⟩
    refine ⟨head, other, [], ?_, hlimit, ?_, rfl⟩
    · rwa [List.append_nil]
    · rwa [List.append_nil]

/-- The bytes behind a head do not matter to the request. -/
theorem parse_other (hcut : Delimiter.cut? Bytes.emptyLine message = some (head, body))
    (other : Bytes) : parse (head ++ (Bytes.emptyLine ++ other)) = parse message := by
  rw [parse, parse, Delimiter.before, Delimiter.before, hcut, cut?_other hcut other]

/-- A request has the last fields of the head that the framing has the first fields of. -/
theorem exists_lines_of_parse (hparse : parse message = .ok r)
    (hcut : Delimiter.cut? Bytes.emptyLine message = some (head, body)) :
    (∀ line ∈ filled (Head.fieldLines head), IsFieldLine line) ∧
      ownView r = .last (filled (Head.fieldLines head)) := by
  obtain ⟨parts, lines, path, ⟨first, hlines, -⟩, -, hfields, rfl⟩ := parse_eq_ok_iff.1 hparse
  have hhead : Head.fieldLines head = lines := by
    rw [headLines, Delimiter.before, hcut] at hlines
    rw [Head.fieldLines, hlines, List.tail_cons]
  rw [hhead]
  exact ⟨hfields, ownView_requestOf parts path lines⟩

end Message

/-! ## Two bodies for one head -/

section Bodies

variable {v w : View}

/-- A chunked body without data. -/
def emptyBody (extension : Bytes) : Bytes := (encode [] extension []).bytes

theorem isBody_emptyBody {extension : Bytes} (h : IsExtension extension) :
    IsBody (emptyBody extension) := by
  refine ⟨encode [] extension [], formed_encode (by simp) h (by simp), ?_, rfl⟩
  rw [decoded_encode]
  exact Nat.zero_le _

theorem length_emptyBody (extension : Bytes) :
    (emptyBody extension).length = (hexText 0).length + extension.length + 4 := by
  simp [emptyBody, encode, Body.bytes, Body.trailerBytes, Bytes.crlf]
  omega

theorem not_isBody_replicate (n : Nat) : ¬ IsBody (List.replicate n 0) := by
  rintro ⟨b, -, -, hbytes⟩
  have hmem : (13 : UInt8) ∈ List.replicate n 0 := by
    rw [hbytes]
    simp [Body.bytes, Bytes.crlf]
  simp at hmem

/-- Someone who goes by a length is told apart from someone who goes by chunks: two bodies of
different lengths end with their chunks. -/
theorem exists_chunks_not_described (h : ¬ w.Announces) :
    ∃ other, IsBody other ∧ ¬ w.Describes other := by
  have hnot {other : Bytes} (hlength : ¬ w.Declares other.length) : ¬ w.Describes other := by
    rintro (⟨hchunks, -⟩ | ⟨-, hdeclares⟩)
    · exact h hchunks
    · exact hlength hdeclares
  have hnone : IsExtension [] := ⟨.inl rfl, unbroken_of_not_mem (by decide)⟩
  have hsemicolon : IsExtension [59] := ⟨.inr rfl, unbroken_of_not_mem (by decide)⟩
  by_cases hshort : w.Declares (emptyBody []).length
  · refine ⟨_, isBody_emptyBody hsemicolon, hnot fun hlong => ?_⟩
    have hsame := isLength_unique hshort hlong
    rw [length_emptyBody, length_emptyBody, List.length_nil, List.length_singleton] at hsame
    omega
  · exact ⟨_, isBody_emptyBody hnone, hnot hshort⟩

/-- Views that do not agree are told apart by a body that is described by the one of them. -/
theorem exists_body_not_described {body : Bytes} (hbody : v.Describes body)
    (hfits : v.Announces ∨ body.length ≤ maxBodyBytes) (h : ¬ v.Agree w) :
    ∃ other, v.Describes other ∧ (v.Announces ∨ other.length ≤ maxBodyBytes) ∧
      ¬ w.Describes other := by
  obtain ⟨hchunks, -⟩ | ⟨hplain, hlength⟩ := hbody
  · have hplain : ¬ w.Announces := fun hchunks' => h (.inl ⟨hchunks, hchunks'⟩)
    obtain ⟨other, hother, hnot⟩ := exists_chunks_not_described hplain
    exact ⟨other, .inl ⟨hchunks, hother⟩, .inl hchunks, hnot⟩
  · have hzeros : (List.replicate body.length (0 : UInt8)).length = body.length :=
      List.length_replicate
    refine ⟨List.replicate body.length 0, .inr ⟨hplain, by rwa [hzeros]⟩, by rwa [hzeros], ?_⟩
    rintro (⟨-, hzero⟩ | ⟨hplain', hlength'⟩)
    · exact not_isBody_replicate _ hzero
    · rw [hzeros] at hlength'
      exact h (.inr ⟨hplain, hplain', _, hlength, hlength'⟩)

end Bodies

/-! ## What agreement decides -/

section Agreement

variable {buffer message head body : Bytes} {r : Request}

theorem exists_cut_of_message (hmessage : message? buffer = .ok (some message)) :
    ∃ head body, Delimiter.cut? Bytes.emptyLine message = some (head, body) := by
  obtain ⟨head, body, rest, hcut, -⟩ := message?_eq_some_iff.1 (message?_self hmessage)
  exact ⟨head, body ++ rest, hcut⟩

/-- The framing goes by its own view of the head. -/
theorem framing_describes (hmessage : message? buffer = .ok (some message))
    (hparse : parse message = .ok r)
    (hcut : Delimiter.cut? Bytes.emptyLine message = some (head, body)) :
    head.length + 4 ≤ maxHeadBytes ∧ (framingView head).Describes body ∧
      ((framingView head).Announces ∨ body.length ≤ maxBodyBytes) := by
  have hframed : Framed head body := by
    unfold Framed
    rw [← Delimiter.append_of_cut? hcut]
    exact message?_self hmessage
  obtain ⟨hlines, -⟩ := exists_lines_of_parse hparse hcut
  obtain ⟨hlimit, hlength⟩ := (framed_iff hcut).1 hframed
  exact ⟨hlimit, (bodyLength?_eq_some_iff hlines).1 hlength⟩

/-- The body of a message is the one that its first fields describe.  The fields of its request
describe it if both views of the head agree, and if they do not, the same head and the same request
come with a body that the fields of the request do not describe. -/
theorem own_fields_describe_body (hmessage : message? buffer = .ok (some message))
    (hparse : parse message = .ok r) :
    ∃ head body, Delimiter.cut? Bytes.emptyLine message = some (head, body) ∧
      (framingView head).Describes body ∧
      ((framingView head).Agree (ownView r) → (ownView r).Describes body) ∧
      (¬ (framingView head).Agree (ownView r) →
        ∃ other, Framed head other ∧ parse (head ++ (Bytes.emptyLine ++ other)) = .ok r ∧
          ¬ (ownView r).Describes other) := by
  obtain ⟨head, body, hcut⟩ := exists_cut_of_message hmessage
  obtain ⟨hlimit, hbody, hfits⟩ := framing_describes hmessage hparse hcut
  refine ⟨head, body, hcut, hbody, fun hagree => hagree.describes hbody, fun hnot => ?_⟩
  obtain ⟨other, hother, hfits', hundescribed⟩ := exists_body_not_described hbody hfits hnot
  obtain ⟨hlines, -⟩ := exists_lines_of_parse hparse hcut
  refine ⟨other, (framed_iff hcut).2 ⟨hlimit, ?_⟩, ?_, hundescribed⟩
  · exact (bodyLength?_eq_some_iff hlines).2 ⟨hother, hfits'⟩
  · rw [parse_other hcut other, hparse]

/-- A message with two content lengths and two bytes behind its head. -/
def twoLengths (first second : String) : Bytes :=
  Bytes.ofText ("POST / HTTP/1.1\r\nContent-Length: " ++ first ++ "\r\nContent-Length: " ++
    second ++ "\r\n\r\nab")

/-- The request that is read from it. -/
def lengthRequest (length : String) : Request where
  method := "POST"
  path := "/"
  target := "/"
  version := .http11
  fields := .ofList [("content-length", length)]

theorem own_fields_describe_equal_lengths :
    message? (twoLengths "2" "02") = .ok (some (twoLengths "2" "02")) ∧
      parse (twoLengths "2" "02") = .ok (lengthRequest "02") ∧
      (∃ head, Delimiter.cut? Bytes.emptyLine (twoLengths "2" "02") =
        some (head, Bytes.ofText "ab")) ∧
      (ownView (lengthRequest "02")).Describes (Bytes.ofText "ab") := by
  have hmessage : message? (twoLengths "2" "02") = .ok (some (twoLengths "2" "02")) := by decide
  have hparse : parse (twoLengths "2" "02") = .ok (lengthRequest "02") := rfl
  have hfirst : IsDecimal (Bytes.ofText "2") 2 := decimal?_eq_some_iff.1 (by decide)
  have hlast : IsDecimal (Bytes.ofText "02") 2 := decimal?_eq_some_iff.1 (by decide)
  obtain ⟨head, body, hcut, -, hagree, -⟩ := own_fields_describe_body hmessage hparse
  obtain ⟨rfl, rfl⟩ := Prod.mk.inj (Option.some.inj hcut)
  refine ⟨hmessage, hparse, ⟨_, hcut⟩, hagree (.inr ⟨?_, ?_, 2, hfirst, hlast⟩)⟩
  · rintro ⟨value, hvalue, -⟩
    contradiction
  · rintro ⟨value, hvalue, -⟩
    contradiction

/-- The framing takes the two bytes for the body, and the request has a content length of zero. -/
theorem replaced_length_describes_no_body :
    message? (twoLengths "2" "0") = .ok (some (twoLengths "2" "0")) ∧
      parse (twoLengths "2" "0") = .ok (lengthRequest "0") ∧
      (∃ head, Delimiter.cut? Bytes.emptyLine (twoLengths "2" "0") =
        some (head, Bytes.ofText "ab")) ∧
      ¬ (ownView (lengthRequest "0")).Describes (Bytes.ofText "ab") := by
  refine ⟨by decide, rfl, ⟨_, rfl⟩, ?_⟩
  rintro (⟨⟨value, hvalue, -⟩, -⟩ | ⟨-, hlength⟩)
  · contradiction
  · have hzero : Numeral.decimal? (Bytes.ofText "0") = some 2 := decimal?_eq_some_iff.2 hlength
    revert hzero
    decide

end Agreement

end CannedReply.Proofs.Request.Agreement
