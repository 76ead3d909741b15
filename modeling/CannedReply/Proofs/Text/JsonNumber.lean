import CannedReply.Outcome
import CannedReply.Proofs.Decimal
import CannedReply.Proofs.Text.JsonString
/-!
# JSON numbers

What the program writes for a number is a JSON number: digits that do not start with a needless
zero, and behind them a point with digits or an exponent or both.  Main statements:
`readsAs_digits`, `exists_readsAs_jsonDuration`.
-/

namespace CannedReply.Proofs.Text.JsonNumber

open CannedReply.Decimal
open CannedReply.Proofs.Decimal
open CannedReply.Proofs.Text.Json
open CannedReply.Proofs.Text.JsonString

variable {ds whole fraction s text : List Char}

/-! ## Digits -/

def AreDigits (ds : List Char) : Prop := ∀ c ∈ ds, c.isDigit = true

/-- No digit at the front. -/
def NoDigit (s : List Char) : Prop := ∀ c ∈ s.head?, c.isDigit = false

theorem digits?_append (hne : ds ≠ []) (hds : AreDigits ds) (hs : NoDigit s) :
    digits? (ds ++ s) = some (ds, s) := by
  have htake : (ds ++ s).takeWhile Char.isDigit = ds := by
    rw [List.takeWhile_append_of_pos hds]
    cases s with
    | nil => simp
    | cons c s => simp [hs c (by simp)]
  have hdrop : (ds ++ s).dropWhile Char.isDigit = s := by
    rw [List.dropWhile_append_of_pos hds]
    cases s with
    | nil => rfl
    | cons c s => simp [hs c (by simp)]
  unfold digits?
  rw [htake, hdrop]
  cases ds with
  | nil => contradiction
  | cons d ds => rfl

theorem noDigit_mark {c : Char} (h : isMark c = true) (rest : List Char) : NoDigit (c :: rest) := by
  intro d hd
  obtain rfl := Option.some.inj hd
  obtain rfl | rfl | rfl := mark_cases h
  · rfl
  · rfl
  · rfl

/-! ## Parts of a number -/

/-- The digits behind the point with the point, or nothing. -/
def pointed : List Char → List Char
  | [] => []
  | more => '.' :: more

theorem pointed_of_ne_nil (h : fraction ≠ []) : pointed fraction = '.' :: fraction := by
  cases fraction with
  | nil => contradiction
  | cons d fraction => rfl

theorem fraction?_pointed (hfraction : AreDigits fraction) (hs : NoDigit s)
    (hpoint : s.head? ≠ some '.') : fraction? (pointed fraction ++ s) = some (fraction, s) := by
  cases fraction with
  | nil =>
    rw [pointed, List.nil_append, fraction?]
    rintro s' rfl
    exact hpoint rfl
  | cons d fraction => exact digits?_append (by simp) hfraction hs

theorem noDigit_pointed (fraction : List Char) (hs : NoDigit s) :
    NoDigit (pointed fraction ++ s) := by
  cases fraction with
  | nil => exact hs
  | cons d fraction =>
    intro c hc
    obtain rfl := Option.some.inj hc
    rfl

theorem exponent?_mark {c : Char} (h : isMark c = true) (rest : List Char) :
    exponent? (c :: rest) = some (0, c :: rest) := by
  obtain rfl | rfl | rfl := mark_cases h
  · rfl
  · rfl
  · rfl

/-- The exponent that a sign and digits spell. -/
def exponentOf (sign : Char) (ds : List Char) : Int :=
  if sign = '-' then -(Nat.ofDigitChars 10 ds 0 : Int) else (Nat.ofDigitChars 10 ds 0 : Int)

theorem exponent?_signed {sign c : Char} (hsign : sign = '-' ∨ sign = '+') (hne : ds ≠ [])
    (hds : AreDigits ds) (hmark : isMark c = true) (rest : List Char) :
    exponent? ('e' :: sign :: (ds ++ c :: rest)) = some (exponentOf sign ds, c :: rest) := by
  have hnatural : natural? (ds ++ c :: rest) = some (Nat.ofDigitChars 10 ds 0, c :: rest) := by
    rw [natural?, digits?_append hne hds (noDigit_mark hmark rest)]
    rfl
  obtain rfl | rfl := hsign
  · rw [exponent?, signedExponent?, hnatural]
    rfl
  · rw [exponent?, signedExponent?, hnatural]
    rfl

/-- What makes a number: the digits before the point, and those behind it. -/
structure AreParts (whole fraction : List Char) : Prop where
  nonempty : whole ≠ []
  leading : isWhole whole = true
  before : AreDigits whole
  behind : AreDigits fraction

theorem unsigned?_parts (h : AreParts whole fraction) (hs : NoDigit s) (hpoint : s.head? ≠ some '.')
    {exponent : Int} {rest : List Char} (hexponent : exponent? s = some (exponent, rest)) :
    unsigned? (whole ++ (pointed fraction ++ s)) = some (scaled whole fraction exponent, rest) := by
  unfold unsigned?
  rw [digits?_append h.nonempty h.before (noDigit_pointed fraction hs)]
  simp [h.leading, fraction?_pointed h.behind hs hpoint, hexponent]

/-! ## Numerals -/

/-- The text of a number without a sign, and what it is read as in front of a mark. -/
structure IsNumeral (text : List Char) (q : Rat) : Prop where
  starts : ∃ d more, text = d :: more ∧ d.isDigit = true
  reads : ∀ c rest, isMark c = true → unsigned? (text ++ c :: rest) = some (q, c :: rest)
  shown : ∀ c ∈ text, IsAscii c

theorem isAscii_of_isDigit {c : Char} (h : c.isDigit = true) : IsAscii c := by
  obtain ⟨hlow, hhigh⟩ := Char.isDigit_iff_toNat.1 h
  exact ⟨Nat.le_trans (by decide) hlow, Nat.le_trans hhigh (by decide)⟩

theorem AreParts.starts (h : AreParts whole fraction) (tail : List Char) :
    ∃ d more, whole ++ tail = d :: more ∧ d.isDigit = true := by
  obtain ⟨d, more, rfl⟩ := List.exists_cons_of_ne_nil h.nonempty
  exact ⟨d, more ++ tail, rfl, h.before d List.mem_cons_self⟩

theorem AreParts.isAscii (h : AreParts whole fraction) :
    ∀ c ∈ whole ++ pointed fraction, IsAscii c := by
  have hpoint : IsAscii '.' := by decide
  have hpointed : ∀ c ∈ pointed fraction, c = '.' ∨ c ∈ fraction := by
    cases fraction with
    | nil => simp [pointed]
    | cons d fraction => simp [pointed]
  refine List.forall_mem_append.2 ⟨fun c hc => isAscii_of_isDigit (h.before c hc), fun c hc => ?_⟩
  obtain rfl | hfraction := hpointed c hc
  · exact hpoint
  · exact isAscii_of_isDigit (h.behind c hfraction)

theorem isNumeral_pointed (h : AreParts whole fraction) :
    IsNumeral (whole ++ pointed fraction) (scaled whole fraction 0) := by
  refine ⟨h.starts _, fun c rest hmark => ?_, h.isAscii⟩
  rw [List.append_assoc]
  apply unsigned?_parts h (noDigit_mark hmark rest) ?_ (exponent?_mark hmark rest)
  intro hpoint
  obtain rfl := Option.some.inj hpoint
  contradiction

theorem isNumeral_exponential (h : AreParts whole fraction) {sign : Char}
    (hsign : sign = '-' ∨ sign = '+') (hne : ds ≠ []) (hds : AreDigits ds) :
    IsNumeral (whole ++ pointed fraction ++ 'e' :: sign :: ds)
      (scaled whole fraction (exponentOf sign ds)) := by
  have hshown : IsAscii 'e' ∧ IsAscii sign := by
    obtain rfl | rfl := hsign
    · decide
    · decide
  refine ⟨?_, fun c rest hmark => ?_, ?_⟩
  · rw [List.append_assoc]
    exact h.starts _
  · rw [List.append_assoc, List.append_assoc]
    apply unsigned?_parts h ?_ (by simp) (exponent?_signed hsign hne hds hmark rest)
    intro d hd
    obtain rfl := Option.some.inj hd
    rfl
  · refine List.forall_mem_append.2 ⟨h.isAscii, List.forall_mem_cons.2 ⟨hshown.1, ?_⟩⟩
    refine List.forall_mem_cons.2 ⟨hshown.2, fun c hc => ?_⟩
    exact isAscii_of_isDigit (hds c hc)

/-! ## Numerals as values -/

theorem ne_of_isDigit {d e : Char} (hd : d.isDigit = true) (he : e.isDigit = false) : d ≠ e := by
  rintro rfl
  rw [hd] at he
  contradiction

theorem skip_of_isDigit {d : Char} (hd : d.isDigit = true) (more : List Char) :
    skip (d :: more) = d :: more := by
  have hsolid : ¬ isBlank d = true := by
    simp [isBlank, ne_of_isDigit hd]
  exact List.dropWhile_cons_of_neg hsolid

theorem value?_number {q : Rat} {rest : List Char} (hstring : s.head? ≠ some '"')
    (harray : s.head? ≠ some '[') (hobject : s.head? ≠ some '\x7b')
    (h : number? s = some (q, rest)) (depth : Nat) :
    value? (depth + 1) s = some (.number q, rest) := by
  unfold value?
  split
  · contradiction
  · exact absurd rfl hstring
  · exact absurd rfl harray
  · exact absurd rfl hobject
  · rw [h]
    rfl

theorem readsAs_numeral {q : Rat} (h : IsNumeral text q) (depth : Nat) :
    ReadsAs (value? (depth + 1)) text (.number q) := by
  intro c rest hmark
  obtain ⟨d, more, rfl, hd⟩ := h.starts
  have hread : number? (d :: (more ++ c :: rest)) = some (q, c :: rest) := by
    rw [number?]
    · exact h.reads c rest hmark
    · intro s hs
      exact ne_of_isDigit hd rfl (List.cons.inj hs).1
  rw [List.cons_append, skip_of_isDigit hd]
  apply value?_number _ _ _ hread
  · simpa using ne_of_isDigit hd rfl
  · simpa using ne_of_isDigit hd rfl
  · simpa using ne_of_isDigit hd rfl

theorem readsAs_minus {q : Rat} (h : IsNumeral text q) (depth : Nat) :
    ReadsAs (value? (depth + 1)) ('-' :: text) (.number (-q)) := by
  intro c rest hmark
  have hread : number? ('-' :: (text ++ c :: rest)) = some (-q, c :: rest) := by
    rw [number?, h.reads c rest hmark]
    rfl
  change value? (depth + 1) ('-' :: (text ++ c :: rest)) = _
  apply value?_number _ _ _ hread
  · simp
  · simp
  · simp

/-! ## Numbers that the program writes -/

theorem areDigits_digits (n : Nat) : AreDigits (digits n) := fun _ hc => isDigit_of_mem_digits hc

theorem areDigits_zeros (n : Nat) : AreDigits (List.replicate n '0') := by
  intro c hc
  rw [(List.mem_replicate.1 hc).2]
  rfl

theorem isWhole_of_head? (h : whole.head? ≠ some '0') : isWhole whole = true := by
  simpa [isWhole] using .inr h

theorem isWhole_digits (n : Nat) : isWhole (digits n) = true := by
  by_cases hzero : n = 0
  · rw [hzero]
    rfl
  · exact isWhole_of_head? (head?_digits hzero)

/-- The digits of a number are read as that number. -/
theorem isNumeral_digits (n : Nat) : IsNumeral (digits n) n := by
  have hvalue : scaled (digits n) [] 0 = n := by
    have hdigits : Nat.ofDigitChars 10 (digits n) 0 = n :=
      Nat.ofDigitChars_toDigits (by decide) (by decide)
    simp [scaled, hdigits]
  have hparts : AreParts (digits n) [] :=
    ⟨digits_ne_nil n, isWhole_digits n, areDigits_digits n, by simp [AreDigits]⟩
  have hnumeral := isNumeral_pointed hparts
  rwa [pointed, List.append_nil, hvalue] at hnumeral

/-- Digits that do not start with a zero. -/
structure AreSignificant (ds : List Char) : Prop where
  nonempty : ds ≠ []
  digits : AreDigits ds
  leading : ds.head? ≠ some '0'

theorem areSignificant_digits {n : Nat} (h : n ≠ 0) : AreSignificant (digits n) :=
  ⟨digits_ne_nil n, areDigits_digits n, head?_digits h⟩

theorem areParts_filled (h : AreSignificant ds) (n : Nat) :
    AreParts (ds ++ List.replicate n '0') ['0'] := by
  refine ⟨by simp [h.nonempty], isWhole_of_head? ?_, ?_, areDigits_zeros 1⟩
  · rw [List.head?_append_of_ne_nil _ h.nonempty]
    exact h.leading
  · exact List.forall_mem_append.2 ⟨h.digits, areDigits_zeros n⟩

theorem areParts_split (h : AreSignificant ds) {k : Nat} (hk : k ≠ 0) :
    AreParts (ds.take k) (ds.drop k) := by
  refine ⟨?_, isWhole_of_head? ?_, ?_, ?_⟩
  · rw [Ne, List.take_eq_nil_iff, not_or]
    exact ⟨hk, h.nonempty⟩
  · rw [List.head?_take, if_neg hk]
    exact h.leading
  · exact fun c hc => h.digits c (List.mem_of_mem_take hc)
  · exact fun c hc => h.digits c (List.mem_of_mem_drop hc)

theorem areParts_small (h : AreSignificant ds) (n : Nat) :
    AreParts ['0'] (List.replicate n '0' ++ ds) := by
  refine ⟨by simp, rfl, areDigits_zeros 1, ?_⟩
  exact List.forall_mem_append.2 ⟨areDigits_zeros n, h.digits⟩

theorem exists_isNumeral_positional (h : AreSignificant ds) (e : Int) :
    ∃ q, IsNumeral (positional ds e) q := by
  have hlength : 0 < ds.length := List.length_pos_iff.2 h.nonempty
  unfold positional
  dsimp only
  split
  · exact ⟨_, isNumeral_pointed (areParts_filled h e.toNat)⟩
  · rename_i hneg
    split
    · rename_i hpoint
      have hbehind : ds.drop ((ds.length : Int) + e).toNat ≠ [] := by
        rw [Ne, List.drop_eq_nil_iff]
        omega
      rw [← pointed_of_ne_nil hbehind]
      exact ⟨_, isNumeral_pointed (areParts_split h (by omega))⟩
    · have hnumeral := isNumeral_pointed (areParts_small h (-((ds.length : Int) + e)).toNat)
      rw [pointed_of_ne_nil (by simp [h.nonempty])] at hnumeral
      exact ⟨_, hnumeral⟩

theorem exists_isNumeral_exponential (h : AreSignificant ds) (exponent : Int) :
    ∃ q, IsNumeral (exponential ds exponent) q := by
  have hsign : (if exponent < 0 then '-' else '+') = '-' ∨
      (if exponent < 0 then '-' else '+') = '+' := by
    split
    · exact .inl rfl
    · exact .inr rfl
  have hspelled : exponential ds exponent = ds.take 1 ++ pointed (ds.drop 1) ++
      'e' :: (if exponent < 0 then '-' else '+') :: padded 2 exponent.natAbs := by
    unfold exponential pointed
    rfl
  rw [hspelled]
  exact ⟨_, isNumeral_exponential (areParts_split h one_ne_zero) hsign (padded_ne_nil _ _)
    fun _ hc => isDigit_of_mem_padded hc⟩

/-- A number is written as a numeral behind an optional sign. -/
theorem exists_isNumeral_shortest (q : Rat) :
    ∃ text v, IsNumeral text v ∧ (shortest q = text ∨ shortest q = '-' :: text) := by
  have hsigned {text : List Char} : minus q ++ text = text ∨ minus q ++ text = '-' :: text := by
    obtain hminus | hminus := minus_cases q
    · exact .inl (by rw [hminus, List.nil_append])
    · exact .inr (by rw [hminus, List.singleton_append])
  by_cases hzero : q = 0
  · refine ⟨['0'] ++ pointed ['0'], _,
      isNumeral_pointed ⟨by simp, rfl, areDigits_zeros 1, areDigits_zeros 1⟩, .inl ?_⟩
    rw [shortest, if_pos hzero]
    rfl
  · obtain ⟨n, e, hn, hpositional | ⟨exponent, hexponential⟩⟩ := shortest_eq hzero
    · obtain ⟨v, hv⟩ := exists_isNumeral_positional (areSignificant_digits hn) e
      rw [hpositional]
      exact ⟨_, v, hv, hsigned⟩
    · obtain ⟨v, hv⟩ := exists_isNumeral_exponential (areSignificant_digits hn) exponent
      rw [hexponential]
      exact ⟨_, v, hv, hsigned⟩

theorem readsAs_digits (n depth : Nat) :
    ReadsAs (value? (depth + 1)) (digits n) (.number n) :=
  readsAs_numeral (isNumeral_digits n) depth

theorem isAscii_digits (n : Nat) : ∀ c ∈ digits n, IsAscii c := (isNumeral_digits n).shown

/-- A number, or an infinite one. -/
inductive IsNumeric : Json → Prop where
  | number (q : Rat) : IsNumeric (.number q)
  | infinity (negative : Bool) : IsNumeric (.infinity negative)

theorem readsAs_infinity (negative : Bool) (depth : Nat) :
    ReadsAs (value? (depth + 1)) (Summary.signed negative "Infinity") (.infinity negative) := by
  intro c rest _
  cases negative with
  | false => rfl
  | true => rfl

theorem isAscii_infinity (negative : Bool) :
    ∀ c ∈ Summary.signed negative "Infinity", IsAscii c := by
  cases negative with
  | false => simp [Summary.signed, IsAscii]
  | true => simp [Summary.signed, IsAscii]

/-- A duration is read as a number. -/
theorem exists_readsAs_jsonDuration (d : Binary64) :
    ∃ latency, IsNumeric latency ∧
      ∀ depth, ReadsAs (value? (depth + 1)) (Summary.jsonDuration d) latency := by
  cases d with
  | infinity negative => exact ⟨_, .infinity negative, readsAs_infinity negative⟩
  | finite q =>
    obtain ⟨text, v, hv, hsame | hsame⟩ := exists_isNumeral_shortest (roundPlaces 3 q)
    · refine ⟨_, .number v, ?_⟩
      rw [Summary.jsonDuration, hsame]
      exact readsAs_numeral hv
    · refine ⟨_, .number (-v), ?_⟩
      rw [Summary.jsonDuration, hsame]
      exact readsAs_minus hv

theorem isAscii_jsonDuration (d : Binary64) : ∀ c ∈ Summary.jsonDuration d, IsAscii c := by
  cases d with
  | infinity negative => exact isAscii_infinity negative
  | finite q =>
    have hminus : IsAscii '-' := by decide
    obtain ⟨text, v, hv, hsame | hsame⟩ := exists_isNumeral_shortest (roundPlaces 3 q)
    · rw [Summary.jsonDuration, hsame]
      exact hv.shown
    · rw [Summary.jsonDuration, hsame]
      exact List.forall_mem_cons.2 ⟨hminus, hv.shown⟩

end CannedReply.Proofs.Text.JsonNumber
