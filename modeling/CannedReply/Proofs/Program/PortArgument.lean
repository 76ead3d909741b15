import CannedReply.Proofs.Cut
import CannedReply.Proofs.Program.Listening
/-!
# A port as the only argument

A word without a leading hyphen is taken for the port.  A run with it listens on just that port, or
refuses it before it listens anywhere, unless it is a number of more digits than a number may have,
or a port for a server that has no room for its reply.  Main statement:
`port_argument_promised_iff`.
-/

namespace CannedReply.Proofs.Program.PortArgument

open CannedReply.Program
open CannedReply.Proofs.Cut
open CannedReply.Proofs.Port
open CannedReply.Proofs.Program.Listening
open CannedReply.Proofs.ReplyFile.Startup

/-- What a run is to do about a port argument: never break off, refuse what is no port before it
makes a call, and bind its listening socket to what is one. -/
structure Promised (text : String) (run : Run) : Prop where
  returns : ∃ code, run.ending = .returned code
  refused : (∀ digits port, Spells text.toList digits port → ¬ InRange port) →
    run.ending = .returned 1 ∧ run.calls = []
  binds : ∀ digits port, Spells text.toList digits port → InRange port →
    bound run = [.bind "0.0.0.0" port]

variable {text : String} {digits : List Char} {port : Int} {world : World}

/-! ## The command line -/

theorem lookup_names (htext : text.toList.head? ≠ some '-') :
    CommandLine.names.lookup text = none := by
  have hnames : ∀ name ∈ CommandLine.names, name.1.toList.head? = some '-' := by decide
  rw [List.lookup_eq_none_iff]
  intro name hname
  rw [bne_iff_ne]
  rintro rfl
  exact htext (hnames name hname)

theorem classify_operand (htext : text.toList.head? ≠ some '-') :
    CommandLine.classify text = .ok (.operand text) := by
  unfold CommandLine.classify
  rw [lookup_names htext]
  dsimp only
  cases hcs : text.toList with
  | nil => rfl
  | cons c cs =>
    rw [hcs] at htext
    split
    all_goals first | rfl | simp_all

theorem parse_operand (htext : text.toList.head? ≠ some '-') :
    CommandLine.parse [text] = .ok (.serve { port := some text }) := by
  have hcut : Delimiter.cut? ["--"] [text] = none := by
    rw [cut?_singleton_eq_none_iff, List.mem_singleton]
    rintro rfl
    exact htext rfl
  unfold CommandLine.parse
  rw [hcut]
  simp only [List.mapM_cons, List.mapM_nil, classify_operand htext]
  rfl

/-! ## The verdict on the port -/

/-- A number of too many digits makes the run break off, whatever its value. -/
theorem run_of_long (htext : text.toList.head? ≠ some '-')
    (hspells : Spells text.toList digits port)
    (hlong : Numeral.maxDecimalDigits < digits.length) (world : World) :
    run [text] world =
      { ending := .failed ((Port.Error.tooManyDigits digits.length).message text) } := by
  simp only [run, parse_operand htext, parse_of_spells hspells, verdict, if_pos hlong]

theorem run_of_refused (htext : text.toList.head? ≠ some '-') (world : World)
    (hshort : ∀ digits port, Spells text.toList digits port →
      digits.length ≤ Numeral.maxDecimalDigits)
    (hnone : ∀ digits port, Spells text.toList digits port → ¬ InRange port) :
    ∃ e, run [text] world = ofRecord 1 (.badPort text e) := by
  by_cases hspelled : ∃ digits port, Spells text.toList digits port
  · obtain ⟨digits, port, hspells⟩ := hspelled
    have hverdict : Port.parse text = .error .outOfRange := by
      rw [parse_of_spells hspells, verdict, if_neg (Nat.not_lt.2 (hshort _ _ hspells)),
        if_neg (hnone _ _ hspells)]
    simp only [run, parse_operand htext, hverdict]
    exact ⟨_, rfl⟩
  · have hverdict := parse_of_unspelled fun digits port hspells =>
      hspelled ⟨digits, port, hspells⟩
    simp only [run, parse_operand htext, hverdict]
    exact ⟨_, rfl⟩

theorem asksFor_of_spells (hspells : Spells text.toList digits port)
    (hshort : digits.length ≤ Numeral.maxDecimalDigits) (hrange : InRange port) :
    AsksFor { port := some text } port :=
  ⟨digits, hspells, hshort, hrange⟩

theorem run_of_port (htext : text.toList.head? ≠ some '-') (hstorage : Affords world.storage)
    (hspells : Spells text.toList digits port)
    (hshort : digits.length ≤ Numeral.maxDecimalDigits) (hrange : InRange port) :
    (∃ code, (run [text] world).ending = .returned code) ∧
      bound (run [text] world) = [.bind "0.0.0.0" port] := by
  rw [run_of_asksFor (parse_operand htext) (asksFor_of_spells hspells hshort hrange)]
  obtain ⟨settings, hhost, hport, -, -, hlistened⟩ :=
    serve_listened hstorage { port := some text } port
  refine ⟨⟨_, hlistened.ending⟩, ?_⟩
  rw [hlistened.binds, hhost, hport]

/-- A port does not help a run that has no room for its reply. -/
theorem run_of_not_affords (htext : text.toList.head? ≠ some '-')
    (hstorage : ¬ Affords world.storage) (hspells : Spells text.toList digits port)
    (hshort : digits.length ≤ Numeral.maxDecimalDigits) (hrange : InRange port) :
    ∃ e : ReplyFile.Error, run [text] world = { ending := .failed e.message } := by
  rw [run_of_asksFor (parse_operand htext) (asksFor_of_spells hspells hshort hrange)]
  obtain ⟨e, -, hserve⟩ := serve_of_not_affords hstorage { port := some text } port
  exact ⟨e, hserve⟩

theorem promised_of_short (htext : text.toList.head? ≠ some '-')
    (hshort : ∀ digits port, Spells text.toList digits port →
      digits.length ≤ Numeral.maxDecimalDigits)
    (hstorage : ∀ digits port, Spells text.toList digits port → InRange port →
      Affords world.storage) : Promised text (run [text] world) := by
  have hrefused := run_of_refused htext world hshort
  have hport (digits : List Char) (port : Int) (hspells : Spells text.toList digits port)
      (hrange : InRange port) :=
    run_of_port htext (hstorage _ _ hspells hrange) hspells (hshort _ _ hspells) hrange
  constructor
  case returns =>
    by_cases hsome : ∃ digits port, Spells text.toList digits port ∧ InRange port
    · obtain ⟨digits, port, hspells, hrange⟩ := hsome
      exact (hport digits port hspells hrange).1
    · obtain ⟨e, hrun⟩ := hrefused fun digits port hspells hrange =>
        hsome ⟨digits, port, hspells, hrange⟩
      rw [hrun]
      exact ⟨1, rfl⟩
  case refused =>
    intro hnone
    obtain ⟨e, hrun⟩ := hrefused hnone
    rw [hrun]
    exact ⟨rfl, rfl⟩
  case binds =>
    intro digits port hspells hrange
    exact (hport digits port hspells hrange).2

/-- A word without a leading hyphen is dealt with as promised, just unless it is a number of too
many digits or a port for which there is no room for the reply: then the run breaks off. -/
theorem port_argument_promised_iff (htext : text.toList.head? ≠ some '-') :
    (Promised text (run [text] world) ↔ ∀ digits port, Spells text.toList digits port →
      digits.length ≤ Numeral.maxDecimalDigits ∧ (InRange port → Affords world.storage)) ∧
    (∀ digits port, Spells text.toList digits port → Numeral.maxDecimalDigits < digits.length →
      (run [text] world).ending =
        .failed ((Port.Error.tooManyDigits digits.length).message text)) ∧
    ∀ digits port, Spells text.toList digits port →
      digits.length ≤ Numeral.maxDecimalDigits → InRange port → ¬ Affords world.storage →
        ∃ e : ReplyFile.Error, run [text] world = { ending := .failed e.message } := by
  have hlong (digits : List Char) (port : Int) (hspells : Spells text.toList digits port)
      (hlength : Numeral.maxDecimalDigits < digits.length) :=
    run_of_long htext hspells hlength world
  refine ⟨⟨fun hpromised digits port hspells => ?_, fun h => ?_⟩,
    fun digits port hspells hlength => by rw [hlong digits port hspells hlength],
    fun digits port hspells hshort hrange hstorage =>
      run_of_not_affords htext hstorage hspells hshort hrange⟩
  · obtain ⟨code, hreturned⟩ := hpromised.returns
    have hshort : digits.length ≤ Numeral.maxDecimalDigits := by
      by_contra hlength
      rw [hlong digits port hspells (Nat.not_le.1 hlength)] at hreturned
      contradiction
    refine ⟨hshort, fun hrange => ?_⟩
    by_contra hstorage
    obtain ⟨e, hrun⟩ := run_of_not_affords htext hstorage hspells hshort hrange
    rw [hrun] at hreturned
    contradiction
  · apply promised_of_short htext
    · exact fun digits port hspells => (h digits port hspells).1
    · exact fun digits port hspells => (h digits port hspells).2

/-- There is room for a reply file that does not exist. -/
theorem affords_of_empty : Affords ({} : World).storage := by
  have hmissing : ({} : World).storage.openFile (FilePath.ofText ReplyFile.defaultPath) =
      .error .notFound := by
    decide
  intro content hopen
  rw [hmissing] at hopen
  contradiction

/-- A port with a sign and a leading zero. -/
theorem port_argument_promised_signed :
    "+080".toList.head? ≠ some '-' ∧ bound (run ["+080"] {}) = [.bind "0.0.0.0" 80] := by
  have htext : "+080".toList.head? ≠ some '-' := by decide
  have hspells : Spells "+080".toList ['0', '8', '0'] 80 := .plus ⟨by decide, by decide⟩
  have hshort (digits : List Char) (port : Int) (h : Spells "+080".toList digits port) :
      digits.length ≤ Numeral.maxDecimalDigits :=
    (length_le_of_spells h).trans (by decide)
  have hpromised := (port_argument_promised_iff htext).1.2 fun digits port h =>
    ⟨hshort digits port h, fun _ => affords_of_empty⟩
  exact ⟨htext, hpromised.binds _ _ hspells (by decide)⟩

/-- A number of one digit too many, far out of the range of ports. -/
def overlong : String := String.ofList (List.replicate 4301 '1')

theorem isDigits_ones (count : Nat) : IsDigits (List.replicate (count + 1) '1') := by
  refine ⟨List.cons_ne_nil _ _, List.all_eq_true.2 fun c hc => ?_⟩
  rw [(List.mem_replicate.1 hc).2]
  rfl

theorem overlong_port_breaks_off :
    overlong.toList.head? ≠ some '-' ∧ ¬ Promised overlong (run [overlong] {}) := by
  have hchars : overlong.toList = List.replicate 4301 '1' := String.toList_ofList
  have htext : overlong.toList.head? ≠ some '-' := by
    rw [hchars]
    decide
  have hspells : Spells overlong.toList (List.replicate 4301 '1')
      (natural (List.replicate 4301 '1')) := by
    rw [hchars]
    exact .bare (isDigits_ones 4300)
  have hlong : Numeral.maxDecimalDigits < (List.replicate 4301 '1').length := by
    rw [List.length_replicate]
    decide
  have hrun := run_of_long htext hspells hlong {}
  refine ⟨htext, fun hpromised => ?_⟩
  obtain ⟨code, hreturned⟩ := hpromised.returns
  rw [hrun] at hreturned
  cases hreturned

end CannedReply.Proofs.Program.PortArgument
