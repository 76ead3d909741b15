import CannedReply.Proofs.Framing.Growth
import CannedReply.Proofs.Numeral.Grammar
import Mathlib.Data.List.TakeWhile
/-!
# The grammar of chunked bodies

A chunked body is a list of chunks, a last size line, trailers and an empty line.  `Body` is its
derivation and `Body.bytes` what it derives.  Main statements: `length?_eq_some_iff`, the reader
finds exactly the bodies of the grammar, and `chunked_length_exact`, which adds that a body is
never a proper part of another and that every encoding is found again.
-/

namespace CannedReply.Proofs.Framing.ChunkGrammar

open CannedReply.Framing CannedReply.Framing.Chunked
open CannedReply.Proofs.Cut
open CannedReply.Proofs.Framing.Growth
open CannedReply.Proofs.Numeral.Grammar

/-! ## The grammar -/

/-- A hexadecimal numeral with blanks around it, and an extension behind a semicolon. -/
def IsSizeLine (line : Bytes) (size : Nat) : Prop :=
  ∃ lead token trail extension, line = lead ++ (token ++ (trail ++ extension)) ∧
    (∀ b ∈ lead ++ trail, Bytes.isBlank b = true) ∧ IsHexadecimal token size ∧
    (extension = [] ∨ extension.head? = some 59)

/-- A line with a colon, as a trailer or a field of a head. -/
def IsColonLine (line : Bytes) : Prop := Unbroken line ∧ 58 ∈ line

structure Chunk where
  sizeLine : Bytes
  data : Bytes

def Chunk.bytes (c : Chunk) : Bytes := c.sizeLine ++ (Bytes.crlf ++ (c.data ++ Bytes.crlf))

/-- The size line announces the data, of which there is some. -/
structure Chunk.Formed (c : Chunk) : Prop where
  unbroken : Unbroken c.sizeLine
  size : IsSizeLine c.sizeLine c.data.length
  nonempty : c.data ≠ []

structure Body where
  chunks : List Chunk
  last : Bytes
  trailers : List Bytes

namespace Body

def trailerBytes (trailers : List Bytes) : Bytes := trailers.flatMap (· ++ Bytes.crlf)

def bytes (b : Body) : Bytes :=
  b.chunks.flatMap Chunk.bytes ++
    (b.last ++ (Bytes.crlf ++ (trailerBytes b.trailers ++ Bytes.crlf)))

/-- The data without its framing. -/
def decoded (b : Body) : Bytes := b.chunks.flatMap Chunk.data

structure Formed (b : Body) : Prop where
  chunks : ∀ c ∈ b.chunks, c.Formed
  unbroken : Unbroken b.last
  last : IsSizeLine b.last 0
  trailers : ∀ t ∈ b.trailers, IsColonLine t

/-- The body with one more chunk in front. -/
def cons (c : Chunk) (b : Body) : Body := { b with chunks := c :: b.chunks }

@[simp] theorem bytes_cons (c : Chunk) (b : Body) : (b.cons c).bytes = c.bytes ++ b.bytes := by
  simp [bytes, cons]

@[simp] theorem decoded_cons (c : Chunk) (b : Body) :
    (b.cons c).decoded = c.data ++ b.decoded := by
  simp [decoded, cons]

theorem formed_cons_iff {c : Chunk} {b : Body} : (b.cons c).Formed ↔ c.Formed ∧ b.Formed := by
  constructor
  · rintro ⟨hchunks, hunbroken, hlast, htrailers⟩
    obtain ⟨hc, hchunks⟩ := List.forall_mem_cons.1 hchunks
    exact ⟨hc, hchunks, hunbroken, hlast, htrailers⟩
  · rintro ⟨hc, hchunks, hunbroken, hlast, htrailers⟩
    exact ⟨List.forall_mem_cons.2 ⟨hc, hchunks⟩, hunbroken, hlast, htrailers⟩

end Body

/-! ## Size lines -/

theorem exists_trim {α : Type} (blank : α → Bool) (s : List α) :
    ∃ lead trail, s = lead ++ (Delimiter.trim blank s ++ trail) ∧
      ∀ a ∈ lead ++ trail, blank a = true := by
  refine ⟨s.takeWhile blank, ((s.dropWhile blank).reverse.takeWhile blank).reverse, ?_, ?_⟩
  · unfold Delimiter.trim
    rw [← List.reverse_append, List.takeWhile_append_dropWhile, List.reverse_reverse,
      List.takeWhile_append_dropWhile]
  · intro a ha
    rcases List.mem_append.1 ha with ha | ha
    · exact List.mem_takeWhile_imp ha
    · exact List.mem_takeWhile_imp (List.mem_reverse.1 ha)

theorem dropWhile_append_solid {α : Type} {blank : α → Bool} {lead t : List α}
    (hlead : ∀ a ∈ lead, blank a = true) (hne : t ≠ []) (ht : ∀ a ∈ t, blank a = false)
    (rest : List α) : (lead ++ (t ++ rest)).dropWhile blank = t ++ rest := by
  obtain ⟨a, t, rfl⟩ := List.exists_cons_of_ne_nil hne
  rw [List.dropWhile_append_of_pos hlead, List.cons_append, List.dropWhile_cons_of_neg]
  simp [ht a]

theorem trim_append {α : Type} {blank : α → Bool} {lead t trail : List α}
    (hblank : ∀ a ∈ lead ++ trail, blank a = true) (hne : t ≠ [])
    (ht : ∀ a ∈ t, blank a = false) : Delimiter.trim blank (lead ++ (t ++ trail)) = t := by
  have hlead : ∀ a ∈ lead, blank a = true := fun a ha => hblank a (by simp [ha])
  have htrail : ∀ a ∈ trail.reverse, blank a = true := fun a ha =>
    hblank a (by simp [List.mem_reverse.1 ha])
  have hback := dropWhile_append_solid htrail (t := t.reverse) (by simpa using hne)
    (fun a ha => ht a (List.mem_reverse.1 ha)) []
  rw [List.append_nil] at hback
  unfold Delimiter.trim
  rw [dropWhile_append_solid hlead hne ht, List.reverse_append, hback, List.reverse_reverse]

/-- The reader of size lines, without its errors. -/
theorem size?_eq_ok {line : Bytes} {size : Nat} : size? line = .ok size ↔
    IsHexadecimal (Delimiter.trim Bytes.isBlank (Delimiter.before [59] line)) size := by
  unfold size?
  generalize Delimiter.trim Bytes.isBlank (Delimiter.before [59] line) = token
  rw [← hexadecimal?_eq_some_iff]
  cases token with
  | nil => simp [Numeral.hexadecimal?, Numeral.digits?, Numeral.digitsFrom, Numeral.sign,
      Numeral.dropHexMark]
  | cons b token =>
    dsimp only
    cases Numeral.hexadecimal? (b :: token) with
    | none => simp
    | some z =>
      dsimp only
      split
      · simp only [reduceCtorEq, Option.some.injEq, false_iff]
        omega
      · simp only [Except.ok.injEq, Option.some.injEq]
        omega

theorem size?_eq_ok_iff {line : Bytes} {size : Nat} :
    size? line = .ok size ↔ IsSizeLine line size := by
  rw [size?_eq_ok]
  constructor
  · intro htoken
    obtain ⟨lead, trail, hbefore, hblank⟩ :=
      exists_trim Bytes.isBlank (Delimiter.before [59] line)
    have hcut : Delimiter.before [59] line = Delimiter.before [59] line := rfl
    obtain ⟨-, hline | ⟨rest, hline⟩⟩ := before_singleton_eq_iff.1 hcut
    · refine ⟨lead, _, trail, [], ?_, hblank, htoken, .inl rfl⟩
      rw [List.append_nil, ← hbefore, ← hline]
    · refine ⟨lead, _, trail, 59 :: rest, ?_, hblank, htoken, .inr rfl⟩
      rw [← List.append_assoc _ trail, ← List.append_assoc lead, ← hbefore, ← hline]
  · rintro ⟨lead, token, trail, extension, rfl, hblank, htoken, hextension⟩
    have hbefore : Delimiter.before [59] (lead ++ (token ++ (trail ++ extension))) =
        lead ++ (token ++ trail) := by
      refine before_singleton_eq_iff.2 ⟨fun hmem => ?_, ?_⟩
      · have hcases : (59 : UInt8) ∈ lead ++ trail ∨ 59 ∈ token := by
          simp only [List.mem_append] at hmem ⊢
          tauto
        rcases hcases with hmem | hmem
        · exact absurd (hblank 59 hmem) (by decide)
        · exact (htoken.mem hmem).2 rfl
      · cases extension with
        | nil => simp
        | cons b extension =>
          obtain rfl : b = 59 := by simpa using hextension
          exact .inr ⟨extension, by simp⟩
    rw [hbefore, trim_append hblank htoken.ne_nil fun b hb => (htoken.mem hb).1]
    exact htoken

/-! ## Trailers -/

theorem trailersFrom_trailer {t : Bytes} (ht : IsColonLine t) (consumed : Nat) (rest : Bytes) :
    trailersFrom consumed (t ++ (Bytes.crlf ++ rest)) =
      trailersFrom (consumed + t.length + 2) rest := by
  obtain ⟨b, tail, rfl⟩ := List.exists_cons_of_ne_nil (List.ne_nil_of_mem ht.2)
  have hcolon : (b :: tail).contains 58 = true := List.contains_iff_mem.2 ht.2
  rw [trailersFrom_eq, line?_eq_some_iff.2 ⟨rfl, ht.1⟩]
  dsimp only
  rw [if_pos hcolon]

theorem trailersFrom_end (consumed : Nat) (rest : Bytes) :
    trailersFrom consumed (Bytes.crlf ++ rest) = .ok (some (consumed + 2)) := by
  have hempty : Bytes.line? [] = none := rfl
  have hline : Bytes.line? (Bytes.crlf ++ rest) = some ([], rest) := line?_append hempty rest
  rw [trailersFrom_eq, hline]

theorem trailersFrom_trailers {trailers : List Bytes} (h : ∀ t ∈ trailers, IsColonLine t)
    (consumed : Nat) (rest : Bytes) :
    trailersFrom consumed (Body.trailerBytes trailers ++ (Bytes.crlf ++ rest)) =
      .ok (some (consumed + (Body.trailerBytes trailers).length + 2)) := by
  induction trailers generalizing consumed with
  | nil => exact trailersFrom_end consumed rest
  | cons t trailers ih =>
    have hbytes : Body.trailerBytes (t :: trailers) =
        t ++ (Bytes.crlf ++ Body.trailerBytes trailers) := by
      simp [Body.trailerBytes]
    rw [hbytes, List.append_assoc, List.append_assoc, trailersFrom_trailer (h t (by simp)),
      ih fun t' ht' => h t' (by simp [ht'])]
    simp only [List.length_append, Bytes.crlf, List.length_cons, List.length_nil,
      Except.ok.injEq, Option.some.injEq]
    omega

theorem exists_trailers {consumed n : Nat} {s : Bytes}
    (h : trailersFrom consumed s = .ok (some n)) :
    ∃ trailers rest, (∀ t ∈ trailers, IsColonLine t) ∧
      s = Body.trailerBytes trailers ++ (Bytes.crlf ++ rest) := by
  fun_induction trailersFrom consumed s with
  | case3 consumed s rest hline => exact ⟨[], rest, by simp, Bytes.append_of_line? hline⟩
  | case4 consumed s line rest hne hline hcolon ih =>
    obtain ⟨trailers, rest', htrailers, rfl⟩ := ih h
    obtain ⟨rfl, hunbroken⟩ := line?_eq_some_iff.1 hline
    have ht : IsColonLine line := ⟨hunbroken, List.contains_iff_mem.1 hcolon⟩
    refine ⟨line :: trailers, rest', ?_, by simp [Body.trailerBytes]⟩
    simpa [ht] using htrailers
  | _ => simp at h

/-! ## Chunks -/

theorem afterData?_data (data rest : Bytes) :
    afterData? data.length (data ++ (Bytes.crlf ++ rest)) = .ok (some rest) := by
  unfold afterData?
  rw [List.drop_left]
  rfl

theorem append_of_afterData? {size : Nat} {rest tail : Bytes}
    (h : afterData? size rest = .ok (some tail)) :
    ∃ data, data.length = size ∧ rest = data ++ (Bytes.crlf ++ tail) := by
  have hlen := length_of_afterData? h
  refine ⟨rest.take size, by simp; omega, ?_⟩
  unfold afterData? at h
  split at h <;> simp only [Except.ok.injEq, Option.some.injEq, reduceCtorEq] at h
  rename_i found hdrop
  subst h
  have hrest := List.take_append_drop size rest
  rw [hdrop] at hrest
  exact hrest.symm

theorem chunksFrom_chunk {c : Chunk} (hc : c.Formed) {decoded : Nat}
    (hfits : decoded + c.data.length ≤ maxBodyBytes) (consumed : Nat) (rest : Bytes) :
    chunksFrom consumed decoded (c.bytes ++ rest) =
      chunksFrom (consumed + c.bytes.length) (decoded + c.data.length) rest := by
  have hbytes : c.bytes ++ rest =
      c.sizeLine ++ (Bytes.crlf ++ (c.data ++ (Bytes.crlf ++ rest))) := by
    simp [Chunk.bytes]
  have hpos : c.data.length ≠ 0 := by simp [hc.nonempty]
  have hlen : c.bytes.length = c.sizeLine.length + 2 + c.data.length + 2 := by
    simp [Chunk.bytes, Bytes.crlf]
    omega
  rw [chunksFrom_eq, hbytes, line?_eq_some_iff.2 ⟨rfl, hc.unbroken⟩]
  dsimp only
  rw [size?_eq_ok_iff.2 hc.size]
  dsimp only
  rw [if_neg hpos, if_neg (Nat.not_lt.2 hfits), afterData?_data]
  dsimp only
  rw [hlen]
  congr 1
  omega

theorem chunksFrom_last {last : Bytes} (hunbroken : Unbroken last) (hlast : IsSizeLine last 0)
    (consumed decoded : Nat) (rest : Bytes) :
    chunksFrom consumed decoded (last ++ (Bytes.crlf ++ rest)) =
      trailersFrom (consumed + last.length + 2) rest := by
  rw [chunksFrom_eq, line?_eq_some_iff.2 ⟨rfl, hunbroken⟩]
  dsimp only
  rw [size?_eq_ok_iff.2 hlast]
  rfl

/-- A reader that finds an end has passed a chunk, or the last size line. -/
theorem chunksFrom_cases {consumed decoded n : Nat} {s : Bytes}
    (h : chunksFrom consumed decoded s = .ok (some n)) :
    (∃ c rest, Chunk.Formed c ∧ decoded + c.data.length ≤ maxBodyBytes ∧ s = c.bytes ++ rest ∧
      chunksFrom (consumed + c.bytes.length) (decoded + c.data.length) rest = .ok (some n)) ∨
    ∃ last rest, Unbroken last ∧ IsSizeLine last 0 ∧ s = last ++ (Bytes.crlf ++ rest) ∧
      trailersFrom (consumed + last.length + 2) rest = .ok (some n) := by
  have hwhole := h
  rw [chunksFrom_eq] at h
  cases hline : Bytes.line? s with
  | none =>
    simp only [hline] at h
    split at h <;> simp at h
  | some cut =>
    obtain ⟨line, rest⟩ := cut
    obtain ⟨rfl, hunbroken⟩ := line?_eq_some_iff.1 hline
    simp only [hline] at h
    cases hsize : size? line with
    | error e => simp [hsize] at h
    | ok size =>
      have hsizeLine := size?_eq_ok_iff.1 hsize
      simp only [hsize] at h
      by_cases hzero : size = 0
      · subst hzero
        exact .inr ⟨line, rest, hunbroken, hsizeLine, rfl, h⟩
      · rw [if_neg hzero] at h
        by_cases hlimit : maxBodyBytes < decoded + size
        · simp [hlimit] at h
        · rw [if_neg hlimit] at h
          match hdata : afterData? size rest with
          | .error e => simp [hdata] at h
          | .ok none => simp [hdata] at h
          | .ok (some tail) =>
            obtain ⟨data, rfl, rfl⟩ := append_of_afterData? hdata
            have hc : Chunk.Formed ⟨line, data⟩ :=
              ⟨hunbroken, hsizeLine, by simpa using hzero⟩
            have hbytes : line ++ (Bytes.crlf ++ (data ++ (Bytes.crlf ++ tail))) =
                Chunk.bytes ⟨line, data⟩ ++ tail := by
              simp [Chunk.bytes]
            rw [hbytes, chunksFrom_chunk hc (Nat.not_lt.1 hlimit)] at hwhole
            exact .inl ⟨_, tail, hc, Nat.not_lt.1 hlimit, hbytes, hwhole⟩

/-! ## Bodies -/

theorem chunksFrom_bytes {b : Body} (hb : b.Formed) {decoded : Nat}
    (hfits : decoded + b.decoded.length ≤ maxBodyBytes) (consumed : Nat) (rest : Bytes) :
    chunksFrom consumed decoded (b.bytes ++ rest) = .ok (some (consumed + b.bytes.length)) := by
  obtain ⟨chunks, last, trailers⟩ := b
  induction chunks generalizing consumed decoded with
  | nil =>
    have hbytes : Body.bytes ⟨[], last, trailers⟩ ++ rest =
        last ++ (Bytes.crlf ++ (Body.trailerBytes trailers ++ (Bytes.crlf ++ rest))) := by
      simp [Body.bytes]
    rw [hbytes, chunksFrom_last hb.unbroken hb.last, trailersFrom_trailers hb.trailers]
    simp [Body.bytes, Bytes.crlf]
    omega
  | cons c chunks ih =>
    change (Body.cons c ⟨chunks, last, trailers⟩).Formed at hb
    change decoded + (Body.cons c ⟨chunks, last, trailers⟩).decoded.length ≤ maxBodyBytes at hfits
    change chunksFrom consumed decoded ((Body.cons c ⟨chunks, last, trailers⟩).bytes ++ rest) =
      .ok (some (consumed + (Body.cons c ⟨chunks, last, trailers⟩).bytes.length))
    obtain ⟨hc, hb⟩ := Body.formed_cons_iff.1 hb
    rw [Body.decoded_cons, List.length_append] at hfits
    rw [Body.bytes_cons, List.append_assoc, chunksFrom_chunk hc (by omega), ih _ hb (by omega),
      List.length_append, Nat.add_assoc]

theorem exists_body {consumed decoded n : Nat} {s : Bytes} (hdecoded : decoded ≤ maxBodyBytes)
    (h : chunksFrom consumed decoded s = .ok (some n)) :
    ∃ b : Body, ∃ rest, b.Formed ∧ decoded + b.decoded.length ≤ maxBodyBytes ∧
      s = b.bytes ++ rest := by
  induction hs : s.length using Nat.strongRecOn generalizing consumed decoded s with
  | ind k ih =>
    obtain ⟨c, rest, hc, hfits, rfl, hnext⟩ | ⟨last, rest, hunbroken, hlast, rfl, hend⟩ :=
      chunksFrom_cases h
    · have hshort : rest.length < k := by
        simp [Chunk.bytes, Bytes.crlf] at hs
        omega
      obtain ⟨b, rest', hb, hlimit, rfl⟩ := ih _ hshort hfits hnext rfl
      refine ⟨b.cons c, rest', Body.formed_cons_iff.2 ⟨hc, hb⟩, ?_, ?_⟩
      · rw [Body.decoded_cons, List.length_append]
        omega
      · rw [Body.bytes_cons, List.append_assoc]
    · obtain ⟨trailers, rest', htrailers, rfl⟩ := exists_trailers hend
      refine ⟨⟨[], last, trailers⟩, rest', ⟨by simp, hunbroken, hlast, htrailers⟩, ?_, ?_⟩
      · simpa [Body.decoded] using hdecoded
      · simp [Body.bytes]

/-- The bytes that the grammar derives, with no more data than a body may have. -/
def IsBody (s : Bytes) : Prop :=
  ∃ b : Body, b.Formed ∧ b.decoded.length ≤ maxBodyBytes ∧ s = b.bytes

theorem length?_bytes {b : Body} (hb : b.Formed) (hfits : b.decoded.length ≤ maxBodyBytes)
    (rest : Bytes) : Chunked.length? (b.bytes ++ rest) = .ok (some b.bytes.length) := by
  rw [Chunked.length?, chunksFrom_bytes hb (by omega), Nat.zero_add]

/-- The reader finds the end of a body exactly where the grammar derives what stands before. -/
theorem length?_eq_some_iff {s : Bytes} {n : Nat} :
    Chunked.length? s = .ok (some n) ↔ n ≤ s.length ∧ IsBody (s.take n) := by
  constructor
  · intro h
    obtain ⟨b, rest, hb, hfits, rfl⟩ := exists_body (Nat.zero_le _) h
    rw [Nat.zero_add] at hfits
    rw [length?_bytes hb hfits] at h
    obtain rfl : b.bytes.length = n := by simpa using h
    exact ⟨by simp, b, hb, hfits, List.take_left⟩
  · rintro ⟨hn, b, hb, hfits, hbytes⟩
    have hlen := congrArg List.length hbytes
    rw [List.length_take, Nat.min_eq_left hn] at hlen
    rw [← List.take_append_drop n s, hbytes, length?_bytes hb hfits, ← hlen]

theorem isBody_take_unique {s : Bytes} {n n' : Nat} (hn : n ≤ s.length) (hn' : n' ≤ s.length)
    (h : IsBody (s.take n)) (h' : IsBody (s.take n')) : n = n' := by
  have hlength := length?_eq_some_iff.2 ⟨hn, h⟩
  rw [length?_eq_some_iff.2 ⟨hn', h'⟩] at hlength
  simpa using hlength.symm

/-! ## Encoding -/

/-- Data, and the extension for the size line in front of it. -/
structure Block where
  data : Bytes
  extension : Bytes

/-- Nothing, or a semicolon and bytes that do not end the line. -/
def IsExtension (s : Bytes) : Prop := (s = [] ∨ s.head? = some 59) ∧ Unbroken s

def Block.chunk (b : Block) : Chunk := ⟨hexText b.data.length ++ b.extension, b.data⟩

def encode (blocks : List Block) (extension : Bytes) (trailers : List Bytes) : Body :=
  ⟨blocks.map Block.chunk, hexText 0 ++ extension, trailers⟩

theorem isSizeLine_hexText {extension : Bytes} (h : IsExtension extension) (n : Nat) :
    IsSizeLine (hexText n ++ extension) n :=
  ⟨[], hexText n, [], extension, rfl, by simp, isHexadecimal_hexText n, h.1⟩

theorem unbroken_hexText {extension : Bytes} (h : IsExtension extension) (n : Nat) :
    Unbroken (hexText n ++ extension) := by
  refine unbroken_append (fun hmem => ?_) h.2
  have hblank := ((isHexadecimal_hexText n).mem hmem).1
  exact absurd hblank (by decide)

theorem formed_encode {blocks : List Block} {extension : Bytes} {trailers : List Bytes}
    (hblocks : ∀ b ∈ blocks, b.data ≠ [] ∧ IsExtension b.extension)
    (hextension : IsExtension extension) (htrailers : ∀ t ∈ trailers, IsColonLine t) :
    (encode blocks extension trailers).Formed := by
  refine ⟨fun c hc => ?_, unbroken_hexText hextension 0, isSizeLine_hexText hextension 0,
    htrailers⟩
  obtain ⟨b, hb, rfl⟩ := List.mem_map.1 hc
  obtain ⟨hdata, hline⟩ := hblocks b hb
  exact ⟨unbroken_hexText hline _, isSizeLine_hexText hline _, hdata⟩

theorem decoded_encode (blocks : List Block) (extension : Bytes) (trailers : List Bytes) :
    (encode blocks extension trailers).decoded = blocks.flatMap Block.data := by
  rw [Body.decoded, encode, List.flatMap_map]
  rfl

/-- A body is found exactly where the grammar derives one, at most one prefix of a stream is a
body, and every encoding of blocks is found whatever follows it. -/
theorem chunked_length_exact (s : Bytes) :
    (∀ n, Chunked.length? s = .ok (some n) ↔ n ≤ s.length ∧ IsBody (s.take n)) ∧
    (∀ n n', n ≤ s.length → n' ≤ s.length → IsBody (s.take n) → IsBody (s.take n') → n = n') ∧
    ∀ blocks extension trailers,
      (∀ b ∈ blocks, b.data ≠ [] ∧ IsExtension b.extension) → IsExtension extension →
      (∀ t ∈ trailers, IsColonLine t) → (blocks.flatMap Block.data).length ≤ maxBodyBytes →
      ∀ rest, Chunked.length? ((encode blocks extension trailers).bytes ++ rest) =
        .ok (some (encode blocks extension trailers).bytes.length) := by
  refine ⟨fun n => length?_eq_some_iff, fun n n' => isBody_take_unique, ?_⟩
  intro blocks extension trailers hblocks hextension htrailers hfits rest
  have hdecoded : (encode blocks extension trailers).decoded.length ≤ maxBodyBytes := by
    rwa [decoded_encode]
  exact length?_bytes (formed_encode hblocks hextension htrailers) hdecoded rest

/-- Data that looks like a size line, an extension and a trailer. -/
theorem chunked_length_two_blocks :
    Chunked.length? (Bytes.ofText "4;a=b\r\n0\r\n\r\r\n1\r\nx\r\n0\r\nT: v\r\n\r\n0\r\n\r\n") =
      .ok (some 30) := by
  let blocks : List Block :=
    [⟨Bytes.ofText "0\r\n\r", Bytes.ofText ";a=b"⟩, ⟨Bytes.ofText "x", []⟩]
  have hblocks : ∀ b ∈ blocks, b.data ≠ [] ∧ IsExtension b.extension := by
    have hfirst : IsExtension (Bytes.ofText ";a=b") := ⟨.inr rfl, line?_eq_none_iff.1 rfl⟩
    have hsecond : IsExtension [] := ⟨.inl rfl, line?_eq_none_iff.1 rfl⟩
    simpa [blocks, hfirst, hsecond] using by decide
  have htrailers : ∀ t ∈ [Bytes.ofText "T: v"], IsColonLine t := by
    simpa using ⟨line?_eq_none_iff.1 rfl, by decide⟩
  have hlength := (chunked_length_exact []).2.2 blocks [] [Bytes.ofText "T: v"] hblocks
    ⟨.inl rfl, line?_eq_none_iff.1 rfl⟩ htrailers (by decide) (Bytes.ofText "0\r\n\r\n")
  have hbytes : (encode blocks [] [Bytes.ofText "T: v"]).bytes ++ Bytes.ofText "0\r\n\r\n" =
      Bytes.ofText "4;a=b\r\n0\r\n\r\r\n1\r\nx\r\n0\r\nT: v\r\n\r\n0\r\n\r\n" := by
    decide
  have hcount : (encode blocks [] [Bytes.ofText "T: v"]).bytes.length = 30 := by decide
  rwa [hbytes, hcount] at hlength

end CannedReply.Proofs.Framing.ChunkGrammar
