import AnsiCanvas.Proofs.Escape.Written
import AnsiCanvas.Proofs.Scan.Later

/-! # Escape sequences in a run

While a sequence is open a run changes nothing but the collector, so a whole escape
sequence amounts to one event.  The byte that ends the sequence is the one that asks for it.
-/

namespace AnsiCanvas

/-! ## Events -/

namespace Event

/-- What the answer of a collector asks for. -/
def ofAnswer : Except EscapeError Command → Event
  | .ok asked => command asked
  | .error error => rejected error

theorem ofByte_of_open {collector : Collector} (opened : collector.isOpen = true) {byte : UInt8}
    (unstopped : isStop byte = false) :
    ofByte collector byte
      = ((collector.feed byte).1, ((collector.feed byte).2.map ofAnswer).getD silence) := by
  rw [ofByte, if_neg (by simp [unstopped]), if_pos opened]
  rcases collector.feed byte with ⟨next, _ | _ | _⟩ <;> rfl

theorem ofByte_of_stop {byte : UInt8} (stops : isStop byte = true) (collector : Collector) :
    ofByte collector byte = (collector, stop) := if_pos stops

theorem ofByte_escape {collector : Collector} (closed : collector.isOpen = false) :
    ofByte collector 0x1B = (collector.begin, silence) := by
  rw [ofByte, if_neg (by decide), if_neg (by simp [closed]), if_pos rfl]

theorem ofByte_carriageReturn {collector : Collector} (closed : collector.isOpen = false) :
    ofByte collector 0x0D = (collector, carriageReturn) := by
  simp [ofByte, isStop, closed]

theorem ofByte_lineFeed {collector : Collector} (closed : collector.isOpen = false) :
    ofByte collector 0x0A = (collector, lineFeed) := by
  simp [ofByte, isStop, closed]

theorem strict_ofByte (collector : Collector) (byte : UInt8) :
    (ofByte collector byte).1.strict = collector.strict := by
  by_cases stops : isStop byte = true
  · rw [ofByte_of_stop stops]
  · cases opened : collector.isOpen with
    | true =>
      rw [ofByte_of_open opened (by simpa using stops)]
      exact collector.strict_feed byte
    | false =>
      simp only [ofByte, if_neg stops, opened, Bool.false_eq_true, ↓reduceIte]
      repeat' split
      all_goals rfl

theorem ofByte_ne_stop {byte : UInt8} (unstopped : isStop byte = false) (collector : Collector) :
    (ofByte collector byte).2 ≠ stop := by
  cases opened : collector.isOpen with
  | true =>
    rw [ofByte_of_open opened unstopped]
    rcases (collector.feed byte).2 with _ | _ | _ <;> simp [ofAnswer]
  | false =>
    simp only [ofByte, unstopped, opened, Bool.false_eq_true, ↓reduceIte]
    repeat' split
    all_goals simp

/-- A stop byte ends a document, and everything else that does is a failure. -/
theorem stop_or_failed_of_ending? {policy : UnhandledPolicy} {offset : Nat} {event : Event}
    {ending : Ending} (ends : event.ending? policy offset = some ending) :
    event = stop ∧ ending = .stopped ∨ ∃ failure, ending = .failed failure := by
  cases event with
  | stop => exact .inl ⟨rfl, (Option.some.inj ends).symm⟩
  | rejected error =>
    cases error with
    | malformed => cases ends
    | unknownTerminator => exact .inr ⟨_, (Option.some.inj ends).symm⟩
  | command command =>
    cases command with
    | unhandled =>
      cases policy with
      | abort => exact .inr ⟨_, (Option.some.inj ends).symm⟩
      | skip => cases ends
    | move | place | eraseDisplay | eraseLine | save | restore | rendition | ignored => cases ends
  | draw | carriageReturn | lineFeed | silence => cases ends

end Event

variable {width : Nat}

namespace Scan

/-! ## Runs in parts -/

/-- What a step does whatever its event has to do with the canvas. -/
theorem step_frame (settings : Settings) (byte : UInt8) (scan : Scan width) :
    (scan.step settings byte).2
        = (Event.ofByte scan.collector byte).2.ending? settings.unhandled scan.offset
      ∧ (scan.step settings byte).1.collector = (Event.ofByte scan.collector byte).1
      ∧ (scan.step settings byte).1.offset = scan.offset + 1 := by
  obtain ⟨collector, canvas, journal, offset⟩ := scan
  simp only [step]
  split <;> exact ⟨(by assumption : _ = _).symm, rfl, rfl⟩

theorem strict_run (settings : Settings) (bytes : List UInt8) (scan : Scan width) :
    (run settings bytes scan).1.collector.strict = scan.collector.strict := by
  apply run_invariant (fun state => state.collector.strict = scan.collector.strict) _ rfl
  intro state byte kept
  rw [(step_frame settings byte state).2.1, Event.strict_ofByte, kept]

/-- A run that meets no stop byte takes all bytes or fails. -/
theorem run_of_unstopped (settings : Settings) {bytes : List UInt8}
    (unstopped : ∀ byte ∈ bytes, Event.isStop byte = false) (scan : Scan width) :
    (∃ failure, (run settings bytes scan).2 = .failed failure)
      ∨ (run settings bytes scan).2 = .exhausted
        ∧ (run settings bytes scan).1.offset = scan.offset + bytes.length := by
  induction bytes generalizing scan with
  | nil => exact .inr ⟨rfl, rfl⟩
  | cons byte rest ih =>
    obtain ⟨ended, -, offset⟩ := step_frame settings byte scan
    rw [run]
    generalize scan.step settings byte = stepped at ended offset ⊢
    rcases stepped with ⟨next, _ | ending⟩
    · rcases ih (fun other member => unstopped other (List.mem_cons_of_mem _ member)) next with
        failed | ⟨exhausted, taken⟩
      · exact .inl failed
      · refine .inr ⟨exhausted, ?_⟩
        rw [taken, offset, List.length_cons, Nat.add_assoc, Nat.add_comm 1]
    · rcases Event.stop_or_failed_of_ending? ended.symm with ⟨stop, -⟩ | ⟨failure, rfl⟩
      · exact absurd stop (Event.ofByte_ne_stop (unstopped byte List.mem_cons_self) _)
      · exact .inl ⟨failure, rfl⟩

theorem run_append {settings : Settings} {first : List UInt8} {scan middle : Scan width}
    (exhausted : run settings first scan = (middle, .exhausted)) (second : List UInt8) :
    run settings (first ++ second) scan = run settings second middle := by
  induction first generalizing scan with
  | nil =>
    obtain rfl : scan = middle := congrArg Prod.fst exhausted
    rfl
  | cons byte first ih =>
    have ended := (step_frame settings byte scan).1
    rw [List.cons_append, run]
    rw [run] at exhausted
    generalize scan.step settings byte = stepped at ended exhausted ⊢
    rcases stepped with ⟨next, _ | ending⟩
    · exact ih exhausted
    · obtain rfl : ending = .exhausted := congrArg Prod.snd exhausted
      rcases Event.stop_or_failed_of_ending? ended.symm with ⟨-, equal⟩ | ⟨_, equal⟩ <;> cases equal

/-! ## Open sequences -/

theorem step_of_silence {settings : Settings} {byte : UInt8} {scan : Scan width}
    {next : Collector} (silent : Event.ofByte scan.collector byte = (next, .silence)) :
    scan.step settings byte
      = ({ scan with collector := next, offset := scan.offset + 1 }, none) := by
  obtain ⟨collector, canvas, journal, offset⟩ := scan
  simp only [step, silent, Event.ending?, Canvas.perform, Journal.record_nil]

/-- Bytes that leave a sequence open change nothing but the collector, unless the document
    ends at one of them. -/
theorem run_of_open (settings : Settings) {bytes : List UInt8} {scan : Scan width}
    (opened : scan.collector.isOpen = true)
    (silent : (scan.collector.feedAll bytes).2 = none) :
    run settings bytes scan
        = ({ scan with
              collector := (scan.collector.feedAll bytes).1,
              offset := scan.offset + bytes.length }, .exhausted)
      ∨ ∃ collector offset,
          run settings bytes scan = ({ scan with collector, offset }, .stopped) := by
  induction bytes generalizing scan with
  | nil => exact .inl rfl
  | cons byte rest ih =>
    cases stops : Event.isStop byte with
    | true =>
      refine .inr ⟨scan.collector, scan.offset + 1, ?_⟩
      simp only [run, step, Event.ofByte_of_stop stops, Event.ending?]
    | false =>
      have event := Event.ofByte_of_open opened stops
      have stays := scan.collector.isOpen_feed byte
      rw [Collector.feedAll] at silent ⊢
      generalize scan.collector.feed byte = fed at event stays silent ⊢
      rcases fed with ⟨next, _ | answer⟩
      · rw [run, step_of_silence event]
        have stillOpen : next.isOpen = true := by simpa [opened] using stays
        have passed := @ih { scan with collector := next, offset := scan.offset + 1 }
          stillOpen silent
        simpa only [List.length_cons, Nat.add_assoc, Nat.add_comm 1] using passed
      · cases silent

/-- Beginning a sequence that stays open changes no more. -/
theorem run_of_unfinished (settings : Settings) {inside : List UInt8} {scan : Scan width}
    (closed : scan.collector.isOpen = false)
    (silent : (scan.collector.read inside).2 = none) :
    run settings (0x1B :: inside) scan
        = ({ scan with
              collector := (scan.collector.read inside).1,
              offset := scan.offset + (inside.length + 1) }, .exhausted)
      ∨ ∃ collector offset,
          run settings (0x1B :: inside) scan = ({ scan with collector, offset }, .stopped) := by
  rw [run, step_of_silence (Event.ofByte_escape closed), Nat.add_comm inside.length,
    ← Nat.add_assoc]
  have opened : scan.collector.begin.isOpen = true := rfl
  exact @run_of_open _ settings _
    { scan with collector := scan.collector.begin, offset := scan.offset + 1 } opened silent

theorem run_of_unfinished_of_unstopped (settings : Settings) {inside : List UInt8}
    {scan : Scan width} (closed : scan.collector.isOpen = false)
    (silent : (scan.collector.read inside).2 = none)
    (unstopped : ∀ byte ∈ 0x1B :: inside, Event.isStop byte = false) :
    run settings (0x1B :: inside) scan
      = ({ scan with
            collector := (scan.collector.read inside).1,
            offset := scan.offset + (inside.length + 1) }, .exhausted) := by
  rcases run_of_unfinished settings closed silent with exhausted | ⟨_, _, stopped⟩
  · exact exhausted
  · rcases run_of_unstopped settings unstopped scan with ⟨_, failed⟩ | ⟨exhausted, -⟩
    · rw [stopped] at failed
      cases failed
    · rw [stopped] at exhausted
      cases exhausted

end Scan

/-! ## Whole sequences -/

/-- The bytes of one escape sequence with its answer: the escape character, bytes that leave
    the sequence open, and the one that ends it. -/
def WholeEscape (strict : Bool) (bytes : List UInt8) (answer : Except EscapeError Command) :
    Prop :=
  ∃ inside ending, bytes = 0x1B :: (inside ++ [ending])
    ∧ (Collector.read { strict } inside).2 = none
    ∧ (Collector.read { strict } (inside ++ [ending])).2 = some answer

namespace Collector

theorem eq_of_closed {first second : Collector} (strict : first.strict = second.strict)
    (firstClosed : first.isOpen = false) (secondClosed : second.isOpen = false) :
    first = second := by
  rw [← reset_of_closed firstClosed, ← reset_of_closed secondClosed, reset, reset, strict]

theorem isOpen_read {collector : Collector} {inside : List UInt8}
    (silent : (collector.read inside).2 = none) : (collector.read inside).1.isOpen = true := by
  rw [read] at silent ⊢
  rw [isOpen_feedAll, silent]
  rfl

/-- The byte that ends a sequence closes the collector. -/
theorem feed_of_read {collector : Collector} {inside : List UInt8} {ending : UInt8}
    {answer : Except EscapeError Command} (silent : (collector.read inside).2 = none)
    (ended : (collector.read (inside ++ [ending])).2 = some answer) :
    (collector.read inside).1.feed ending = (collector.reset, some answer) := by
  have answered : ((collector.read inside).1.feed ending).2 = some answer := by
    rw [read] at silent ended ⊢
    rw [feedAll_append] at ended
    generalize collector.begin.feedAll inside = opened at silent ended ⊢
    obtain ⟨next, _⟩ := opened
    obtain rfl : _ = none := silent
    simp only [feedAll] at ended
    generalize next.feed ending = fed at ended ⊢
    rcases fed with ⟨last, _ | _⟩ <;> exact ended
  have closed : ((collector.read inside).1.feed ending).1.isOpen = false := by
    rw [isOpen_feed, answered]
    exact Bool.and_false _
  have strict : ((collector.read inside).1.feed ending).1.strict = collector.reset.strict := by
    rw [strict_feed, read, strict_feedAll]
    rfl
  exact Prod.ext (eq_of_closed strict closed rfl) answered

end Collector

namespace Scan

/-- A whole escape sequence is the event that its answer asks for, met at the last byte. -/
theorem run_of_wholeEscape {settings : Settings} {bytes : List UInt8}
    {answer : Except EscapeError Command} {scan : Scan width}
    (escape : WholeEscape scan.collector.strict bytes answer)
    (unstopped : ∀ byte ∈ bytes, Event.isStop byte = false)
    (closed : scan.collector.isOpen = false)
    (continues : (Event.ofAnswer answer).ending? settings.unhandled
      (scan.offset + (bytes.length - 1)) = none) :
    run settings bytes scan
      = ({ scan with
            canvas := (scan.canvas.perform settings.rowLimit (Event.ofAnswer answer)).1,
            journal := scan.journal.record
              (scan.canvas.perform settings.rowLimit (Event.ofAnswer answer)).2
              (scan.offset + (bytes.length - 1)),
            offset := scan.offset + bytes.length }, .exhausted) := by
  -- What a collector has seen before does not matter to a new sequence.
  obtain ⟨inside, ending, rfl, (silent : (scan.collector.read inside).2 = none),
    (ended : (scan.collector.read (inside ++ [ending])).2 = some answer)⟩ := escape
  have length : (0x1B :: (inside ++ [ending])).length = inside.length + 1 + 1 := by simp
  rw [length, Nat.add_sub_cancel] at continues ⊢
  rw [← List.cons_append] at unstopped ⊢
  have begun := run_of_unfinished_of_unstopped settings closed silent
    fun byte member => unstopped byte (List.mem_append_left _ member)
  have event := Event.ofByte_of_open (Collector.isOpen_read silent)
    (unstopped ending (List.mem_append_right _ List.mem_cons_self))
  rw [Collector.feed_of_read silent ended] at event
  rw [run_append begun, run]
  simp only [step, event, Option.map_some, Option.getD_some, continues, run,
    Collector.reset_of_closed closed, Nat.add_assoc]

end Scan

end AnsiCanvas
