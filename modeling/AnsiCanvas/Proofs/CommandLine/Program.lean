import AnsiCanvas.CommandLine.Program
import AnsiCanvas.Proofs.Scan.Lockstep

/-! # What a run prints

A run prints the conversions of its documents one after the other, as far as they succeed, and
after a failure no more than a reset.

The induction is on the documents.  It is carried by the fact that a later document is what it was
at the start of the run: only standard input is used up, and it is named at most once.
-/

namespace AnsiCanvas

/-! ## Settings -/

theorem exists_of_bind_eq_ok {ε α β : Type} {first : Except ε α} {next : α → Except ε β} {value : β}
    (succeeds : (first >>= next) = .ok value) :
    ∃ middle, first = .ok middle ∧ next middle = .ok value := by
  cases first with
  | error _ => cases succeeds
  | ok middle => exact ⟨middle, rfl, succeeds⟩

theorem Settings.width_pos_of_validate {settings : Settings}
    (valid : settings.validate = .ok ()) : 0 < settings.width := by
  rw [validate, screenWidth?] at valid
  apply Nat.pos_of_ne_zero
  intro zero
  rw [if_pos zero] at valid
  cases valid

theorem Arguments.validate_of_settings {arguments : Arguments} {file : String → Option ByteArray}
    {settings : Settings} (loaded : arguments.settings file = .ok settings) :
    settings.validate = .ok () := by
  -- With or without a file, what is on top of it is validated last.
  have overridden {base : Settings}
      (loaded : (do (arguments.override base).validate; pure (arguments.override base))
        = Except.ok settings) : settings.validate = .ok () := by
    obtain ⟨_, valid, loaded⟩ := exists_of_bind_eq_ok loaded
    cases loaded
    exact valid
  rw [Arguments.settings] at loaded
  split at loaded
  · obtain ⟨base, -, loaded⟩ := exists_of_bind_eq_ok loaded
    exact overridden loaded
  · exact overridden loaded

/-- Settings that are loaded make a converter. -/
theorem Arguments.exists_converter {arguments : Arguments} {file : String → Option ByteArray}
    {settings : Settings} (loaded : arguments.settings file = .ok settings) :
    ∃ converter, Converter.ofSettings settings = .ok converter :=
  ⟨_, dif_pos (Settings.width_pos_of_validate (validate_of_settings loaded))⟩

/-! ## Documents -/

/-- Reading a document leaves the others as they are if standard input is among them once. -/
theorem Surroundings.document?_after (surroundings : Surroundings) {path other : String}
    {others : List String} (once : (path :: others).countP Path.isStandardInput ≤ 1)
    (member : other ∈ others) (taken : Nat) :
    (surroundings.after path taken).document? other = surroundings.document? other := by
  rw [after]
  split
  · next isInput =>
    rw [List.countP_cons, if_pos isInput] at once
    have none : others.countP Path.isStandardInput = 0 := by omega
    have isFile : ¬ Path.isStandardInput other = true := List.countP_eq_zero.mp none other member
    rw [document?, if_neg isFile, document?, if_neg isFile, skip]
  · rfl

theorem Converter.fst_convertText (converter : Converter) (source : Source) (listening : Bool) :
    (converter.convertText source listening).1 = (converter.convertText source false).1 := by
  cases listening with
  | false => rfl
  | true => rw [convertText, convertText, convert_unheard]

theorem Converter.text_of_error {converter : Converter} {source : Source} {listening : Bool}
    {failure : Failure} (fails : (converter.convert source {} listening).result = .error failure) :
    (converter.convert source {} listening).outlet.text = "" := by
  rw [convert_eq_ofScan] at fails ⊢
  rw [Outcome.outlet_ofScan_of_error _ _ _ rfl fails]
  rfl

namespace Program

/-- What is printed of a document, if there is one and its conversion succeeds. -/
def printed? (converter : Converter) (surroundings : Surroundings) (path : String) :
    Option String :=
  (surroundings.document? path).bind fun bytes =>
    (converter.convertText ⟨bytes.toList, none⟩ false).1.toOption

/-- Texts one after the other, each followed by a newline. -/
def concatenation (texts : List String) : String := String.join (texts.map (· ++ "\n"))

variable {converter : Converter} {surroundings : Surroundings} {path : String}

theorem convertAll_of_printed {text : String}
    (printed : printed? converter surroundings path = some text) (listening : Bool)
    (output : String) (log : List LogEntry) (rest : List String) :
    ∃ log' taken, convertAll converter listening output log (path :: rest) surroundings
      = convertAll converter listening (output ++ text ++ "\n") log' rest
          (surroundings.after path taken) := by
  obtain ⟨bytes, found, succeeds⟩ := Option.bind_eq_some_iff.mp printed
  rw [← Converter.fst_convertText _ _ listening, Converter.convertText] at succeeds
  rw [convertAll, found]
  dsimp only at succeeds ⊢
  cases result : (converter.convert ⟨bytes.toList, none⟩ {} listening).result with
  | error failure =>
    rw [result] at succeeds
    cases succeeds
  | ok summary =>
    rw [result] at succeeds
    cases succeeds
    exact ⟨_, summary.bytesRead, rfl⟩

/-- A document that fails has written nothing, so that only the reset is added. -/
theorem convertAll_of_not_printed (unprinted : printed? converter surroundings path = none)
    (listening : Bool) (output : String) (log : List LogEntry) (rest : List String) :
    ∃ log', convertAll converter listening output log (path :: rest) surroundings
      = ⟨1, output ++ resetEscape, log'⟩ := by
  rw [convertAll]
  cases found : surroundings.document? path with
  | none => exact ⟨_, rfl⟩
  | some bytes =>
    rw [printed?, found, Option.bind_some, ← Converter.fst_convertText _ _ listening,
      Converter.convertText] at unprinted
    dsimp only at unprinted ⊢
    cases result : (converter.convert ⟨bytes.toList, none⟩ {} listening).result with
    | error failure =>
      rw [Converter.text_of_error result, String.append_empty]
      exact ⟨_, rfl⟩
    | ok summary =>
      rw [result] at unprinted
      cases unprinted

theorem printed?_congr {left : Surroundings}
    (same : left.document? path = surroundings.document? path) :
    printed? converter left path = printed? converter surroundings path := by
  rw [printed?, same, printed?]

/-- Documents that succeed are printed, and what follows them is read as if it came first. -/
theorem convertAll_append {before rest texts : List String}
    (once : (before ++ rest).countP Path.isStandardInput ≤ 1)
    (printed : before.map (printed? converter surroundings) = texts.map some) (listening : Bool)
    (output : String) (log : List LogEntry) :
    ∃ log' left, (∀ path ∈ rest, left.document? path = surroundings.document? path)
      ∧ convertAll converter listening output log (before ++ rest) surroundings
        = convertAll converter listening (output ++ concatenation texts) log' rest left := by
  induction before generalizing texts surroundings output log with
  | nil =>
    obtain rfl : texts = [] := by simpa using printed
    exact ⟨log, surroundings, fun _ _ => rfl, by simp [concatenation]⟩
  | cons path before ih =>
    cases texts with
    | nil => cases printed
    | cons text texts =>
      rw [List.map_cons, List.map_cons, List.cons.injEq] at printed
      obtain ⟨log', taken, first⟩ := convertAll_of_printed printed.1 listening output log
        (before ++ rest)
      have kept (other : String) (member : other ∈ before ++ rest) :
          (surroundings.after path taken).document? other = surroundings.document? other :=
        surroundings.document?_after once member taken
      have later : before.map (printed? converter (surroundings.after path taken))
          = texts.map some := by
        rw [← printed.2]
        apply List.map_congr_left
        intro other member
        exact printed?_congr (kept other (List.mem_append_left _ member))
      have onceLater : (before ++ rest).countP Path.isStandardInput ≤ 1 :=
        Nat.le_trans (List.sublist_cons_self path _).countP_le once
      obtain ⟨log', left, same, continued⟩ := ih onceLater later (output ++ text ++ "\n") log'
      refine ⟨log', left, fun other member => ?_, ?_⟩
      · rw [same other member, kept other (List.mem_append_right _ member)]
      · rw [List.cons_append, first, continued]
        simp [concatenation, String.join_cons, String.append_assoc]

/-- The documents of accepted words are converted in order up to the first that fails.  When the
    settings do not load, a run prints only a reset.  When they load and every document is there
    and is converted, it prints the conversions, each with a newline after it, and ends well.
    When a document is the first that is missing or fails, the run prints the conversions before
    it, each with a newline after it, and a reset. -/
theorem run_concatenates {words : List String} {arguments : Arguments}
    (accepted : Arguments.ofWords words = .ok arguments) (surroundings : Surroundings)
    (once : (documents arguments).countP Path.isStandardInput ≤ 1) :
    let report := run words surroundings
    (∀ error, arguments.settings surroundings.file = .error error →
        report.exitCode = 1 ∧ report.output = "\x1b[0m")
      ∧ ∀ settings, arguments.settings surroundings.file = .ok settings →
          ∃ converter, Converter.ofSettings settings = .ok converter
            ∧ (∀ texts : List String,
                (documents arguments).map (printed? converter surroundings) = texts.map some →
                report.exitCode = 0 ∧ report.output = concatenation texts)
            ∧ ∀ before path after, documents arguments = before ++ path :: after →
                ∀ texts : List String,
                  before.map (printed? converter surroundings) = texts.map some →
                  printed? converter surroundings path = none →
                  report.exitCode = 1 ∧ report.output = concatenation texts ++ "\x1b[0m" := by
  intro report
  have started : report = runWith arguments surroundings := by
    simp only [report, run, accepted]
  constructor
  · intro error fails
    rw [started, runWith, fails]
    exact ⟨rfl, rfl⟩
  · intro settings loaded
    obtain ⟨converter, made⟩ := Arguments.exists_converter loaded
    have converts : report
        = convertAll converter arguments.debug "" [] (documents arguments) surroundings := by
      simp only [started, runWith, loaded, made]
    refine ⟨converter, made, fun texts printed => ?_, fun before path after order texts printed
      unprinted => ?_⟩
    · rw [← List.append_nil (documents arguments)] at once converts
      obtain ⟨log, left, -, printing⟩ := convertAll_append once printed arguments.debug "" []
      rw [converts, printing, convertAll, String.empty_append]
      exact ⟨rfl, rfl⟩
    · rw [order] at once converts
      obtain ⟨log, left, same, printing⟩ := convertAll_append once printed arguments.debug "" []
      rw [← printed?_congr (same path List.mem_cons_self)] at unprinted
      obtain ⟨log', ends⟩ := convertAll_of_not_printed unprinted arguments.debug
        ("" ++ concatenation texts) log after
      rw [converts, printing, ends, String.empty_append]
      exact ⟨rfl, rfl⟩

/-- A file, standard input, and a file that is missing. -/
theorem run_concatenates_two_of_three :
    (run ["-w", "1", "--max-rows", "1", "a.ans", "-", "b.ans"]
          ⟨⟨#[0x42]⟩, fun path => if path = "a.ans" then some ⟨#[0x41]⟩ else none⟩).exitCode = 1
      ∧ (run ["-w", "1", "--max-rows", "1", "a.ans", "-", "b.ans"]
          ⟨⟨#[0x42]⟩, fun path => if path = "a.ans" then some ⟨#[0x41]⟩ else none⟩).output
        = "\x1b[0m\x1b[37;40mA\x1b[0m\n\n\x1b[0m\x1b[37;40mB\x1b[0m\n\n\x1b[0m" := by
  have taken : (Arguments.ofWords ["-w", "1", "--max-rows", "1", "a.ans", "-", "b.ans"]).toOption
      = some { width := some 1, rowLimit := some 1, files := #["a.ans", "-", "b.ans"] } := by
    decide +kernel
  have accepted : Arguments.ofWords ["-w", "1", "--max-rows", "1", "a.ans", "-", "b.ans"]
      = .ok { width := some 1, rowLimit := some 1, files := #["a.ans", "-", "b.ans"] } := by
    cases read : Arguments.ofWords ["-w", "1", "--max-rows", "1", "a.ans", "-", "b.ans"] with
    | error _ =>
      rw [read] at taken
      cases taken
    | ok _ =>
      rw [read] at taken
      exact congrArg Except.ok (Option.some.inj taken)
  obtain ⟨converter, made, -, failing⟩ := (run_concatenates accepted
    ⟨⟨#[0x42]⟩, fun path => if path = "a.ans" then some ⟨#[0x41]⟩ else none⟩
    (by decide +kernel)).2 { width := 1, rowLimit := 1 } rfl
  obtain rfl : ⟨{ width := 1, rowLimit := 1 }, by decide⟩ = converter := Except.ok.inj made
  exact failing ["a.ans", "-"] "b.ans" [] rfl
    ["\x1b[0m\x1b[37;40mA\x1b[0m\n", "\x1b[0m\x1b[37;40mB\x1b[0m\n"] (by decide +kernel) rfl

end Program

end AnsiCanvas
