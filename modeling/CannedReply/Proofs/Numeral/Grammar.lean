import CannedReply.Numeral
import Mathlib.Data.Nat.Digits.Lemmas
/-!
# The grammar of numerals

A numeral is an optional sign, an optional `0x` if it is hexadecimal, and digits between which
single underscores may stand.  The grammar is stated as relations between bytes and numbers, and
both readers accept exactly what it derives.  Every number has a hexadecimal numeral of its own,
`hexText`, and its decimal text is a numeral for it.
-/

namespace CannedReply.Proofs.Numeral.Grammar

open CannedReply.Numeral

/-- Digits with their values; a single underscore may stand between two of them. -/
inductive SpellsDigits (digit? : UInt8 → Option Nat) : Bytes → List Nat → Prop where
  | last {b : UInt8} {d : Nat} : digit? b = some d → SpellsDigits digit? [b] [d]
  | next {b : UInt8} {d : Nat} {s : Bytes} {ds : List Nat} : digit? b = some d →
      SpellsDigits digit? s ds → SpellsDigits digit? (b :: s) (d :: ds)
  | gap {b : UInt8} {d : Nat} {s : Bytes} {ds : List Nat} : digit? b = some d →
      SpellsDigits digit? s ds → SpellsDigits digit? (b :: 95 :: s) (d :: ds)

inductive IsSign : Bytes → Bool → Prop where
  | absent : IsSign [] false
  | plus : IsSign [43] false
  | minus : IsSign [45] true

/-- The mark of a hexadecimal numeral; one underscore may follow it. -/
inductive IsHexMark : Bytes → Prop where
  | absent : IsHexMark []
  | small : IsHexMark [48, 120]
  | capital : IsHexMark [48, 88]
  | smallGap : IsHexMark [48, 120, 95]
  | capitalGap : IsHexMark [48, 88, 95]

inductive IsDecimal : Bytes → Int → Prop where
  | intro {sign body : Bytes} {negative : Bool} {ds : List Nat} : IsSign sign negative →
      SpellsDigits Bytes.decimalDigit? body ds → ds.length ≤ maxDecimalDigits →
      IsDecimal (sign ++ body) (signed negative (value 10 ds))

inductive IsHexadecimal : Bytes → Int → Prop where
  | intro {sign mark body : Bytes} {negative : Bool} {ds : List Nat} : IsSign sign negative →
      IsHexMark mark → SpellsDigits Bytes.hexDigit? body ds →
      IsHexadecimal (sign ++ (mark ++ body)) (signed negative (value 16 ds))

/-! ## Digits -/

section Digits

variable {digit? : UInt8 → Option Nat} {read ds result : List Nat} {b : UInt8} {s : Bytes}

theorem SpellsDigits.head (h : SpellsDigits digit? s ds) :
    ∃ b rest, s = b :: rest ∧ (digit? b).isSome := by
  cases h with
  | last hb => exact ⟨_, _, rfl, by simp [hb]⟩
  | next hb _ => exact ⟨_, _, rfl, by simp [hb]⟩
  | gap hb _ => exact ⟨_, _, rfl, by simp [hb]⟩

theorem SpellsDigits.mem (h : SpellsDigits digit? s ds) (hb : b ∈ s) :
    (digit? b).isSome ∨ b = 95 := by
  induction h with
  | last hdigit =>
    obtain rfl := List.mem_singleton.1 hb
    exact .inl (by simp [hdigit])
  | next hdigit _ ih =>
    obtain rfl | hb := List.mem_cons.1 hb
    · exact .inl (by simp [hdigit])
    · exact ih hb
  | gap hdigit _ ih =>
    obtain rfl | hb := List.mem_cons.1 hb
    · exact .inl (by simp [hdigit])
    · obtain rfl | hb := List.mem_cons.1 hb
      · exact .inr rfl
      · exact ih hb

theorem digitsFrom_next {d : Nat} (hb : digit? b = some d) (hne : s ≠ [])
    (hgap : s.head? ≠ some 95) :
    digitsFrom digit? read (b :: s) = digitsFrom digit? (d :: read) s := by
  cases s with
  | nil => contradiction
  | cons c rest =>
    rw [digitsFrom]
    · rw [hb]
    · simp
    · rintro tail ⟨rfl, -⟩
      simp at hgap

theorem digitsFrom_of_spells (hgap : digit? 95 = none) (h : SpellsDigits digit? s ds)
    (read : List Nat) : digitsFrom digit? read s = some (read.reverse ++ ds) := by
  induction h generalizing read with
  | last hb => simp [digitsFrom, hb]
  | @next b d s ds hb hs ih =>
    obtain ⟨c, rest, rfl, hc⟩ := hs.head
    have hnot : (c :: rest).head? ≠ some 95 := by
      rintro hhead
      obtain rfl := Option.some.inj hhead
      simp [hgap] at hc
    rw [digitsFrom_next hb (by simp) hnot, ih]
    simp
  | gap hb _ ih =>
    rw [digitsFrom, hb]
    dsimp only
    rw [ih]
    simp

theorem spells_of_digitsFrom (h : digitsFrom digit? read s = some result) :
    ∃ ds, result = read.reverse ++ ds ∧ SpellsDigits digit? s ds := by
  fun_induction digitsFrom digit? read s with
  | case1 => contradiction
  | case2 read b =>
    obtain ⟨d, hb, rfl⟩ := Option.map_eq_some_iff.1 h
    exact ⟨[d], by simp, .last hb⟩
  | case3 read b rest d hb ih =>
    obtain ⟨ds, rfl, hs⟩ := ih h
    exact ⟨d :: ds, by simp, .gap hb hs⟩
  | case5 read b rest _ _ d hb ih =>
    obtain ⟨ds, rfl, hs⟩ := ih h
    exact ⟨d :: ds, by simp, .next hb hs⟩
  | _ => contradiction

theorem digits?_eq_some_iff (hgap : digit? 95 = none) :
    digits? digit? s = some ds ↔ SpellsDigits digit? s ds := by
  constructor
  · intro h
    obtain ⟨ds', rfl, hs⟩ := spells_of_digitsFrom h
    exact hs
  · intro h
    exact digitsFrom_of_spells hgap h []

end Digits

/-! ## Signs and marks -/

theorem isSign_sign (s : Bytes) : ∃ mark, IsSign mark (sign s).1 ∧ s = mark ++ (sign s).2 := by
  unfold sign
  split
  · exact ⟨[43], .plus, rfl⟩
  · exact ⟨[45], .minus, rfl⟩
  · exact ⟨[], .absent, rfl⟩

theorem sign_append {mark body : Bytes} {negative : Bool} (h : IsSign mark negative)
    (hbody : ∀ b ∈ body.head?, b ≠ 43 ∧ b ≠ 45) : sign (mark ++ body) = (negative, body) := by
  cases h with
  | plus => rfl
  | minus => rfl
  | absent =>
    show sign body = _
    unfold sign
    split
    · simp at hbody
    · simp at hbody
    · rfl

theorem isHexMark_dropHexMark (s : Bytes) : ∃ mark, IsHexMark mark ∧ s = mark ++ dropHexMark s := by
  unfold dropHexMark
  split
  · rename_i x rest
    by_cases hx : x = 120
    · exact ⟨[48, 120, 95], .smallGap, by simp [hx]⟩
    · by_cases hx' : x = 88
      · exact ⟨[48, 88, 95], .capitalGap, by simp [hx']⟩
      · exact ⟨[], .absent, by simp [hx, hx']⟩
  · rename_i x rest _
    by_cases hx : x = 120
    · exact ⟨[48, 120], .small, by simp [hx]⟩
    · by_cases hx' : x = 88
      · exact ⟨[48, 88], .capital, by simp [hx']⟩
      · exact ⟨[], .absent, by simp [hx, hx']⟩
  · exact ⟨[], .absent, rfl⟩

/-! ## Hexadecimal numerals -/

section Hexadecimal

variable {body s : Bytes} {ds : List Nat} {z : Int}

theorem hexDigit?_gap : Bytes.hexDigit? 95 = none := rfl

theorem not_mark_of_mem (h : SpellsDigits Bytes.hexDigit? body ds) {b : UInt8} (hb : b ∈ body) :
    b ≠ 120 ∧ b ≠ 88 := by
  constructor
  · rintro rfl
    exact absurd (h.mem hb) (by decide)
  · rintro rfl
    exact absurd (h.mem hb) (by decide)

theorem dropHexMark_of_spells (h : SpellsDigits Bytes.hexDigit? body ds) :
    dropHexMark body = body := by
  unfold dropHexMark
  split
  · rename_i x rest
    obtain ⟨hsmall, hcapital⟩ := not_mark_of_mem h (b := x) (by simp)
    simp [hsmall, hcapital]
  · rename_i x rest _
    obtain ⟨hsmall, hcapital⟩ := not_mark_of_mem h (b := x) (by simp)
    simp [hsmall, hcapital]
  · rfl

theorem dropHexMark_append {mark : Bytes} (hmark : IsHexMark mark)
    (h : SpellsDigits Bytes.hexDigit? body ds) : dropHexMark (mark ++ body) = body := by
  obtain ⟨b, rest, rfl, hb⟩ := h.head
  have hgap : b ≠ 95 := by
    rintro rfl
    simp [hexDigit?_gap] at hb
  cases hmark with
  | absent => exact dropHexMark_of_spells h
  | small => simp [dropHexMark, hgap]
  | capital => simp [dropHexMark, hgap]
  | smallGap => rfl
  | capitalGap => rfl

theorem head_of_hexMark {mark : Bytes} (hmark : IsHexMark mark)
    (h : SpellsDigits Bytes.hexDigit? body ds) :
    ∀ b ∈ (mark ++ body).head?, b ≠ 43 ∧ b ≠ 45 := by
  obtain ⟨c, rest, rfl, hc⟩ := h.head
  intro b hb
  cases hmark with
  | absent =>
    obtain rfl : c = b := by simpa using hb
    constructor <;> rintro rfl <;> exact absurd hc (by decide)
  | _ =>
    obtain rfl : 48 = b := by simpa using hb
    decide

theorem hexadecimal?_eq (s : Bytes) :
    hexadecimal? s =
      (digits? Bytes.hexDigit? (dropHexMark (sign s).2)).map fun ds =>
        signed (sign s).1 (longValue 16 ds) :=
  rfl

theorem hexadecimal?_eq_some_iff : hexadecimal? s = some z ↔ IsHexadecimal s z := by
  rw [hexadecimal?_eq]
  constructor
  · intro h
    obtain ⟨ds, hds, rfl⟩ := Option.map_eq_some_iff.1 h
    rw [digits?_eq_some_iff hexDigit?_gap] at hds
    obtain ⟨mark, hmark, hbody⟩ := isHexMark_dropHexMark (sign s).2
    obtain ⟨front, hsign, hs⟩ := isSign_sign s
    have hintro := IsHexadecimal.intro hsign hmark hds
    rw [← hbody, ← hs] at hintro
    rwa [longValue_eq_value]
  · rintro ⟨hsign, hmark, hds⟩
    rw [sign_append hsign (head_of_hexMark hmark hds)]
    rw [dropHexMark_append hmark hds, (digits?_eq_some_iff hexDigit?_gap).2 hds]
    simp

theorem IsHexadecimal.ne_nil (h : IsHexadecimal s z) : s ≠ [] := by
  cases h with
  | intro _ _ hds =>
    obtain ⟨b, rest, rfl, -⟩ := hds.head
    simp

/-- The bytes of a numeral are letters, digits, signs and underscores. -/
theorem IsHexadecimal.mem (h : IsHexadecimal s z) {b : UInt8} (hb : b ∈ s) :
    Bytes.isBlank b = false ∧ b ≠ 59 := by
  have hdigit : ∀ b : UInt8, (Bytes.hexDigit? b).isSome ∨ b = 95 →
      Bytes.isBlank b = false ∧ b ≠ 59 := by
    intro b hb
    rcases hb with hb | rfl
    · constructor
      · unfold Bytes.hexDigit? Bytes.isDigit at hb
        unfold Bytes.isBlank
        grind
      · rintro rfl
        exact absurd hb (by decide)
    · decide
  cases h with
  | intro hsign hmark hds =>
    rcases List.mem_append.1 hb with hb | hb
    · cases hsign with
      | absent => exact absurd hb List.not_mem_nil
      | _ =>
        obtain rfl := List.mem_singleton.1 hb
        decide
    · rcases List.mem_append.1 hb with hb | hb
      · cases hmark with
        | absent => exact absurd hb List.not_mem_nil
        | _ =>
          simp only [List.mem_cons, List.not_mem_nil, or_false] at hb
          rcases hb with rfl | rfl | rfl <;> decide
      · exact hdigit b (hds.mem hb)

end Hexadecimal

/-! ## Decimal numerals -/

theorem decimalDigit?_gap : Bytes.decimalDigit? 95 = none := rfl

theorem decimal?_eq_some_iff {s : Bytes} {z : Int} : decimal? s = some z ↔ IsDecimal s z := by
  constructor
  · intro h
    obtain ⟨front, hsign, hs⟩ := isSign_sign s
    unfold decimal? at h
    dsimp only at h
    split at h
    · contradiction
    · rename_i ds hds
      split at h
      · contradiction
      · rename_i hshort
        obtain rfl := Option.some.inj h
        rw [digits?_eq_some_iff decimalDigit?_gap] at hds
        have hintro := IsDecimal.intro hsign hds (Nat.not_lt.1 hshort)
        rwa [← hs] at hintro
  · rintro @⟨front, body, negative, ds, hsign, hds, hshort⟩
    have hhead : ∀ b ∈ body.head?, b ≠ 43 ∧ b ≠ 45 := by
      obtain ⟨c, rest, rfl, hc⟩ := hds.head
      intro b hb
      obtain rfl : c = b := by simpa using hb
      constructor <;> rintro rfl <;> exact absurd hc (by decide)
    unfold decimal?
    rw [sign_append hsign hhead]
    dsimp only
    rw [(digits?_eq_some_iff decimalDigit?_gap).2 hds]
    dsimp only
    rw [if_neg (Nat.not_lt.2 hshort)]

/-! ## The numeral of a number -/

def digitByte (d : Nat) : UInt8 := UInt8.ofNat (if d < 10 then 48 + d else 87 + d)

/-- The hexadecimal numeral of a number in small letters and without leading zeros. -/
def hexText (n : Nat) : Bytes :=
  if n = 0 then [48] else (Nat.digits 16 n).reverse.map digitByte

theorem hexDigit?_digitByte : ∀ d < 16, Bytes.hexDigit? (digitByte d) = some d := by decide

theorem spellsDigits_map {ds : List Nat} (hne : ds ≠ []) (hds : ∀ d ∈ ds, d < 16) :
    SpellsDigits Bytes.hexDigit? (ds.map digitByte) ds := by
  induction ds with
  | nil => contradiction
  | cons d ds ih =>
    have hd := hexDigit?_digitByte d (hds d (by simp))
    cases ds with
    | nil => exact .last hd
    | cons d' ds =>
      apply SpellsDigits.next hd
      exact ih (by simp) fun e he => hds e (by simp [he])

theorem value_digits (n : Nat) : value 16 (Nat.digits 16 n).reverse = n := by
  have hfold : value 16 (Nat.digits 16 n).reverse = Nat.ofDigits 16 (Nat.digits 16 n) := by
    rw [value, List.foldl_reverse, Nat.ofDigits_eq_foldr]
    congr
    funext d m
    rw [Nat.cast_id]
    omega
  rw [hfold, Nat.ofDigits_digits]

theorem isHexadecimal_hexText (n : Nat) : IsHexadecimal (hexText n) n := by
  unfold hexText
  by_cases hn : n = 0
  · subst hn
    exact .intro .absent .absent (.last (d := 0) rfl)
  · rw [if_neg hn]
    have hne : (Nat.digits 16 n).reverse ≠ [] := by simp [Nat.digits_ne_nil_iff_ne_zero, hn]
    have hds : ∀ d ∈ (Nat.digits 16 n).reverse, d < 16 := fun d hd =>
      Nat.digits_lt_base (by decide) (List.mem_reverse.1 hd)
    have hintro := IsHexadecimal.intro .absent .absent (spellsDigits_map hne hds)
    rw [value_digits] at hintro
    exact hintro

/-! ## Decimal texts -/

theorem decimalDigit?_of_isDigit {c : Char} (h : c.isDigit) :
    Bytes.decimalDigit? (UInt8.ofNat c.toNat) = some (c.toNat - 48) := by
  obtain ⟨hlow, hhigh⟩ := Char.isDigit_iff_toNat.1 h
  have hvalue : (UInt8.ofNat c.toNat).toNat = c.toNat :=
    UInt8.toNat_ofNat_of_lt' (Nat.lt_of_le_of_lt hhigh (by decide))
  have hdigit : Bytes.isDigit (UInt8.ofNat c.toNat) = true := by
    simp only [Bytes.isDigit, Bool.and_eq_true, decide_eq_true_eq, UInt8.le_iff_toNat_le, hvalue]
    exact ⟨hlow, hhigh⟩
  rw [Bytes.decimalDigit?, if_pos hdigit, hvalue]

theorem spellsDigits_ofList {cs : List Char} (hne : cs ≠ []) (h : ∀ c ∈ cs, c.isDigit) :
    SpellsDigits Bytes.decimalDigit? (Bytes.ofText (.ofList cs))
      (cs.map fun c => c.toNat - 48) := by
  rw [Bytes.ofText, String.toList_ofList]
  induction cs with
  | nil => contradiction
  | cons c cs ih =>
    obtain ⟨hc, hcs⟩ := List.forall_mem_cons.1 h
    cases cs with
    | nil => exact .last (decimalDigit?_of_isDigit hc)
    | cons c' cs => exact .next (decimalDigit?_of_isDigit hc) (ih (by simp) hcs)

theorem value_eq_ofDigitChars (cs : List Char) :
    value 10 (cs.map fun c => c.toNat - 48) = Nat.ofDigitChars 10 cs 0 := by
  rw [value, Nat.ofDigitChars_eq_foldl, List.foldl_map]
  congr
  funext n c
  rw [Nat.mul_comm]
  rfl

/-- The decimal text of a number is a numeral for it. -/
theorem isDecimal_toString {n : Nat} (h : (toString n).length ≤ maxDecimalDigits) :
    IsDecimal (Bytes.ofText (toString n)) n := by
  have hspells := spellsDigits_ofList Nat.toDigits_ne_nil fun c hc =>
    Nat.isDigit_of_mem_toDigits (b := 10) (n := n) (by decide) (by decide) hc
  have hshort : ((Nat.toDigits 10 n).map fun c => c.toNat - 48).length ≤ maxDecimalDigits := by
    rwa [Nat.toString_eq_ofList_toDigits, String.length_ofList, ← List.length_map] at h
  have hintro := IsDecimal.intro .absent hspells hshort
  rwa [value_eq_ofDigitChars, Nat.ofDigitChars_ten_toDigits] at hintro

end CannedReply.Proofs.Numeral.Grammar
