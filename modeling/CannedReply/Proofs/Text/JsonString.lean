import CannedReply.Proofs.Text.Json
import CannedReply.Text.JsonString
import Mathlib.Algebra.Group.Nat.Defs
/-!
# JSON strings

Every text is found again in its literal, whatever stands behind it, and the literal is printable
ASCII.  An escape is undone in two steps, to the codes that it spells and from them to the
character.  Main statements: `string?_literal`, `isAscii_literal`.
-/

namespace CannedReply.Proofs.Text.JsonString

open CannedReply.Text
open CannedReply.Text.JsonString
open CannedReply.Proofs.Text.Json

/-! ## Escapes -/

/-- A printable character of ASCII. -/
def IsAscii (c : Char) : Prop := 0x20 ≤ c.toNat ∧ c.toNat ≤ 0x7e

instance (c : Char) : Decidable (IsAscii c) := inferInstanceAs (Decidable (_ ∧ _))

/-- The ways in which a character is written. -/
inductive IsEscape (c : Char) : List Char → Prop where
  | short {letter : Char} : shorthand? letter = some c.toNat → IsEscape c ['\\', letter]
  | plain : c ≠ '"' → c ≠ '\\' → IsAscii c → IsEscape c [c]
  | unit : c.toNat < 0x10000 → IsEscape c (unit c.toNat)
  | pair : 0x10000 ≤ c.toNat → IsEscape c (JsonString.unit (0xd800 + (c.toNat - 0x10000) / 0x400) ++
      JsonString.unit (0xdc00 + (c.toNat - 0x10000) % 0x400))

theorem isEscape_escape (c : Char) : IsEscape c (escape c) := by
  unfold escape
  dsimp only
  split
  · rename_i hquoted
    simp only [Bool.or_eq_true, beq_iff_eq] at hquoted
    obtain rfl | rfl := hquoted
    · exact .short rfl
    · exact .short rfl
  split
  · rename_i hlf
    obtain rfl := beq_iff_eq.1 hlf
    exact .short rfl
  split
  · rename_i hcr
    obtain rfl := beq_iff_eq.1 hcr
    exact .short rfl
  split
  · rename_i htab
    obtain rfl := beq_iff_eq.1 htab
    exact .short rfl
  split
  · rename_i hbackspace
    exact .short (congrArg some (beq_iff_eq.1 hbackspace).symm)
  split
  · rename_i hfeed
    exact .short (congrArg some (beq_iff_eq.1 hfeed).symm)
  split
  · rename_i hquoted _ _ _ _ _ hshown
    simp only [Bool.or_eq_true, beq_iff_eq, not_or] at hquoted
    simp only [Bool.and_eq_true, decide_eq_true_eq] at hshown
    exact .plain hquoted.1 hquoted.2 hshown
  split
  · rename_i hsmall
    exact .unit hsmall
  · rename_i hlarge
    exact .pair (not_lt.1 hlarge)

/-- All that has a short escape is ASCII, and so is its escape. -/
theorem ascii_of_shorthand {letter : Char} {code : Nat} (h : shorthand? letter = some code) :
    code < 0x80 ∧ IsAscii letter := by
  unfold shorthand? at h
  split at h
  · rename_i hself
    rw [← Option.some.inj h]
    obtain rfl | rfl | rfl := hself
    · decide
    · decide
    · decide
  split at h
  · rename_i hletter
    rw [hletter, ← Option.some.inj h]
    decide
  split at h
  · rename_i hletter
    rw [hletter, ← Option.some.inj h]
    decide
  split at h
  · rename_i hletter
    rw [hletter, ← Option.some.inj h]
    decide
  split at h
  · rename_i hletter
    rw [hletter, ← Option.some.inj h]
    decide
  split at h
  · rename_i hletter
    rw [hletter, ← Option.some.inj h]
    decide
  contradiction

/-! ## Codes -/

/-- The codes that the escape of a character spells. -/
def codesOf (c : Char) : List Nat :=
  if c.toNat < 0x10000 then [c.toNat]
  else [0xd800 + (c.toNat - 0x10000) / 0x400, 0xdc00 + (c.toNat - 0x10000) % 0x400]

/-- A reading with these codes in front. -/
abbrev behind (codes : List Nat) : List Nat × List Char → List Nat × List Char :=
  Prod.map (codes ++ ·) id

theorem hexValue?_hexDigit (n : Nat) : hexValue? (hexDigit n) = some (n % 16) := by
  have hdigits : ∀ d < 16, hexValue? (Nat.digitChar d) = some d := by decide
  exact hdigits _ (Nat.mod_lt n (by decide))

theorem code?_hex (width n : Nat) : code? (hex width n) = some (n % 16 ^ width) := by
  induction width generalizing n with
  | zero => simp [hex, code?, Nat.mod_one]
  | succ width ih =>
    have hfront : (hex width (n / 16)).foldlM (fun n c => (hexValue? c).map (16 * n + ·)) 0 =
        some (n / 16 % 16 ^ width) := ih (n / 16)
    rw [hex, code?, List.foldlM_append, hfront]
    simp only [List.foldlM_cons, List.foldlM_nil, hexValue?_hexDigit, Option.map_some,
      Option.bind_eq_bind, Option.bind_some, Option.pure_def]
    rw [Nat.pow_succ', Nat.mod_mul, Nat.add_comm]

theorem codes?_unit {n : Nat} (h : n < 0x10000) (s : List Char) :
    codes? (unit n ++ s) = (codes? s).map (behind [n]) := by
  have hcode : code? (hex 4 n) = some n := by
    rw [code?_hex]
    exact congrArg some (Nat.mod_eq_of_lt h)
  change code? [_, _, _, _] = _ at hcode
  change codes? ('\\' :: 'u' :: _ :: _ :: _ :: _ :: s) = _
  rw [codes?, hcode]
  cases codes? s <;> rfl

theorem codes?_shorthand {c : Char} {code : Nat} (h : shorthand? c = some code) (s : List Char) :
    codes? ('\\' :: c :: s) = (codes? s).map (behind [code]) := by
  have hletter : c ≠ 'u' := by
    rintro rfl
    contradiction
  rw [codes?.eq_3 _ _ (fun _ _ _ _ _ hunit _ => hletter hunit), h]
  cases codes? s <;> rfl

theorem codes?_plain {c : Char} (hquote : c ≠ '"') (hbackslash : c ≠ '\\') (hshown : 0x20 ≤ c.toNat)
    (s : List Char) : codes? (c :: s) = (codes? s).map (behind [c.toNat]) := by
  have hequation := codes?.eq_4 c s hquote (fun _ _ _ _ _ hc _ => hbackslash hc)
    (fun _ _ hc _ => hbackslash hc)
  rw [hequation, if_pos hshown]
  cases codes? s <;> rfl

theorem codesOf_of_lt {c : Char} (h : c.toNat < 0x10000) : codesOf c = [c.toNat] := if_pos h

theorem toNat_lt (c : Char) : c.toNat < 0x110000 := by
  obtain hlow | hhigh := c.valid
  · exact Nat.lt_trans hlow (by decide)
  · exact hhigh.2

/-- The escape of a character spells its codes, whatever follows. -/
theorem codes?_escape (c : Char) (s : List Char) :
    codes? (escape c ++ s) = (codes? s).map (behind (codesOf c)) := by
  have hescape := isEscape_escape c
  generalize escape c = spelled at hescape
  cases hescape with
  | short hshort =>
    have hsmall := (ascii_of_shorthand hshort).1
    rw [codesOf_of_lt (by omega)]
    exact codes?_shorthand hshort s
  | plain hquote hbackslash hshown =>
    rw [codesOf_of_lt (Nat.lt_of_le_of_lt hshown.2 (by decide))]
    exact codes?_plain hquote hbackslash hshown.1 s
  | unit hsmall =>
    rw [codesOf_of_lt hsmall]
    exact codes?_unit hsmall s
  | pair hlarge =>
    have hbound := toNat_lt c
    rw [codesOf, if_neg (not_lt.2 hlarge), List.append_assoc, codes?_unit (by omega),
      codes?_unit (by omega), Option.map_map]
    rfl

theorem codes?_literal (cs rest : List Char) :
    codes? (cs.flatMap escape ++ '"' :: rest) = some (cs.flatMap codesOf, rest) := by
  induction cs with
  | nil => rfl
  | cons c cs ih =>
    rw [List.flatMap_cons, List.append_assoc, codes?_escape, ih]
    rfl

/-! ## Characters -/

/-- No character is half of a pair of surrogates. -/
theorem not_surrogate (c : Char) : isHigh c.toNat = false ∧ isLow c.toNat = false := by
  have hvalid : c.toNat < 0xd800 ∨ 0xdfff < c.toNat ∧ c.toNat < 0x110000 := c.valid
  simp only [isHigh, isLow, Bool.and_eq_false_iff, decide_eq_false_iff_not]
  omega

theorem characters?_single {c : Char} (codes : List Nat) :
    characters? (c.toNat :: codes) = (characters? codes).map (c :: ·) := by
  obtain ⟨hhigh, hlow⟩ := not_surrogate c
  cases codes with
  | nil => simp [characters?, hhigh, hlow]
  | cons next codes =>
    rw [characters?, hhigh, hlow, Char.ofNat_toNat]
    cases characters? (next :: codes) <;> rfl

theorem characters?_pair {high low : Nat} (hhigh : isHigh high = true) (hlow : isLow low = true)
    (codes : List Nat) :
    characters? (high :: low :: codes) = (characters? codes).map
      (.ofNat (0x10000 + (high - 0xd800) * 0x400 + (low - 0xdc00)) :: ·) := by
  rw [characters?, hhigh, hlow]
  cases characters? codes <;> rfl

/-- The codes of a character are read as that character, whatever follows. -/
theorem characters?_codesOf (c : Char) (codes : List Nat) :
    characters? (codesOf c ++ codes) = (characters? codes).map (c :: ·) := by
  have hbound := toNat_lt c
  unfold codesOf
  split
  · exact characters?_single codes
  · have hhigh : isHigh (0xd800 + (c.toNat - 0x10000) / 0x400) = true := by
      simp only [isHigh, Bool.and_eq_true, decide_eq_true_eq]
      omega
    have hlow : isLow (0xdc00 + (c.toNat - 0x10000) % 0x400) = true := by
      simp only [isLow, Bool.and_eq_true, decide_eq_true_eq]
      omega
    have hsame : 0x10000 + (0xd800 + (c.toNat - 0x10000) / 0x400 - 0xd800) * 0x400 +
        (0xdc00 + (c.toNat - 0x10000) % 0x400 - 0xdc00) = c.toNat := by
      omega
    change characters? (_ :: _ :: codes) = _
    rw [characters?_pair hhigh hlow, hsame, Char.ofNat_toNat]

theorem characters?_flatMap (cs : List Char) : characters? (cs.flatMap codesOf) = some cs := by
  induction cs with
  | nil => rfl
  | cons c cs ih =>
    rw [List.flatMap_cons, characters?_codesOf, ih]
    rfl

theorem string?_literal (text : String) (rest : List Char) :
    string? (text.toList.flatMap escape ++ '"' :: rest) = some (text, rest) := by
  unfold string?
  rw [codes?_literal]
  simp [characters?_flatMap]

theorem literal_append (text : String) (rest : List Char) :
    literal text ++ rest = '"' :: (text.toList.flatMap escape ++ '"' :: rest) := by
  simp [literal]

theorem readsAs_literal (depth : Nat) (text : String) :
    ReadsAs (value? (depth + 1)) (literal text) (.string text) := by
  intro c rest _
  rw [literal_append]
  change (string? _).map _ = _
  rw [string?_literal]
  rfl

/-- A member is read if its value is. -/
theorem readsAs_member {value? : Reader Json} {text : List Char} {value : Json}
    (h : ReadsAs value? text value) (name : String) :
    ReadsAs (member? value?) (literal name ++ ':' :: ' ' :: text) (name, value) := by
  intro c rest hmark
  have hvalue : value? (skip (' ' :: (text ++ c :: rest))) = some (value, c :: rest) :=
    h c rest hmark
  rw [List.append_assoc, literal_append]
  change member? value? ('"' :: _) = _
  rw [member?, string?_literal]
  change (value? (skip (' ' :: (text ++ c :: rest)))).bind _ = _
  rw [hvalue]
  rfl

/-! ## Printable text -/

theorem isAscii_hexDigit (n : Nat) : IsAscii (hexDigit n) := by
  have hdigits : ∀ d < 16, IsAscii (Nat.digitChar d) := by decide
  exact hdigits _ (Nat.mod_lt n (by decide))

theorem isAscii_of_mem_hex {width n : Nat} {c : Char} (h : c ∈ hex width n) : IsAscii c := by
  induction width generalizing n with
  | zero => contradiction
  | succ width ih =>
    obtain hfront | hlast := List.mem_append.1 h
    · exact ih hfront
    · rw [List.mem_singleton.1 hlast]
      exact isAscii_hexDigit n

theorem isAscii_of_mem_unit {n : Nat} {c : Char} (h : c ∈ unit n) : IsAscii c := by
  have hmark : ∀ c ∈ ['\\', 'u'], IsAscii c := by simp [IsAscii]
  obtain hfront | hcode := List.mem_append.1 (show c ∈ ['\\', 'u'] ++ hex 4 n from h)
  · exact hmark c hfront
  · exact isAscii_of_mem_hex hcode

theorem isAscii_escape (c : Char) : ∀ e ∈ escape c, IsAscii e := by
  have hescape := isEscape_escape c
  have hbackslash : IsAscii '\\' := by decide
  generalize escape c = spelled at hescape
  cases hescape with
  | short hshort =>
    have hletter := (ascii_of_shorthand hshort).2
    exact List.forall_mem_cons.2 ⟨hbackslash, List.forall_mem_singleton.2 hletter⟩
  | plain _ _ hshown => exact List.forall_mem_singleton.2 hshown
  | unit _ => exact fun _ he => isAscii_of_mem_unit he
  | pair _ =>
    exact List.forall_mem_append.2
      ⟨fun _ he => isAscii_of_mem_unit he, fun _ he => isAscii_of_mem_unit he⟩

theorem isAscii_literal (text : String) : ∀ c ∈ literal text, IsAscii c := by
  have hquote : IsAscii '"' := by decide
  refine List.forall_mem_append.2 ⟨List.forall_mem_cons.2 ⟨hquote, fun e he => ?_⟩, ?_⟩
  · obtain ⟨c, -, hescape⟩ := List.mem_flatMap.1 he
    exact isAscii_escape c e hescape
  · exact List.forall_mem_singleton.2 hquote

end CannedReply.Proofs.Text.JsonString
