import AnsiCanvas.Proofs.Canvas.Findings
import AnsiCanvas.Proofs.Scan.Ending
import AnsiCanvas.Proofs.Scan.Inert

/-! # Events in either order

Moving the cursor and erasing have nothing to do with the pen.  They neither look at it nor
change it, and what is erased or added takes the plain pen.  A graphic rendition changes nothing
else and looks at nothing else, also where it is followed in part only.  So the two may be carried
out in either order.

For a conversion the order of two such events is then a matter of the journal alone: the offsets
of what they find, and which of them comes first.
-/

namespace AnsiCanvas

variable {width : Nat}

/-- The events that move the cursor or erase. -/
inductive Event.IsPenless : Event → Prop
  | carriageReturn : IsPenless carriageReturn
  | lineFeed : IsPenless lineFeed
  | move (direction : Direction) (amount : Nat) : IsPenless (command (.move direction amount))
  | place (row column : Nat) : IsPenless (command (.place row column))
  | eraseDisplay (extent : DisplayErase) : IsPenless (command (.eraseDisplay extent))
  | eraseLine (extent : LineErase) : IsPenless (command (.eraseLine extent))

theorem Event.IsPenless.ending?_eq_none {event : Event} (penless : event.IsPenless)
    (policy : UnhandledPolicy) (offset : Nat) : event.ending? policy offset = none := by
  cases penless <;> rfl

theorem Event.IsPenless.ne_draw {event : Event} (penless : event.IsPenless) (byte : UInt8) :
    event ≠ .draw byte := by
  cases penless <;> nofun

namespace Canvas

/-! ## The pen and the rest of a canvas -/

def withPen (canvas : Canvas width) (pen : Pen) : Canvas width := { canvas with pen := pen }

theorem withPen_pen (canvas : Canvas width) : canvas.withPen canvas.pen = canvas := rfl

/-- With another pen in use an event without regard to the pen does the same and finds the same. -/
theorem perform_withPen {event : Event} (penless : event.IsPenless) (limit : Nat)
    (canvas : Canvas width) (pen : Pen) :
    (canvas.withPen pen).perform limit event
      = (canvas.perform limit event).map (withPen · pen) id := by
  cases penless with
  | eraseDisplay extent => cases extent <;> rfl
  | carriageReturn | lineFeed | move | place | eraseLine => rfl

theorem pen_perform {event : Event} (penless : event.IsPenless) (limit : Nat)
    (canvas : Canvas width) : (canvas.perform limit event).1.pen = canvas.pen := by
  have same := perform_withPen penless limit canvas canvas.pen
  rw [withPen_pen] at same
  rw [same]
  rfl

/-- A graphic rendition is about the pen alone. -/
theorem perform_rendition (limit : Nat) (codes : List Nat) (canvas : Canvas width) :
    canvas.perform limit (.command (.rendition codes))
      = (canvas.withPen (canvas.pen.merge codes).1,
          (canvas.pen.merge codes).2.toList.map .rendition) := rfl

/-! ## Order -/

/-- Two events whose order does not matter on a canvas: they lead to the same canvas either way,
    and each finds the same whether it comes first or second. -/
structure Exchangeable (limit : Nat) (first second : Event) (canvas : Canvas width) : Prop where
  result : ((canvas.perform limit second).1.perform limit first).1
    = ((canvas.perform limit first).1.perform limit second).1
  foundFirst : ((canvas.perform limit second).1.perform limit first).2
    = (canvas.perform limit first).2
  foundSecond : ((canvas.perform limit first).1.perform limit second).2
    = (canvas.perform limit second).2

theorem exchangeable_of_penless {event : Event} (penless : event.IsPenless) (limit : Nat)
    (codes : List Nat) (canvas : Canvas width) :
    canvas.Exchangeable limit (.command (.rendition codes)) event := by
  have moved (pen : Pen) := perform_withPen penless limit canvas pen
  have kept := pen_perform penless limit canvas
  constructor
  · simp only [perform_rendition, moved, kept, Prod.map_fst]
  · simp only [perform_rendition, kept]
  · simp only [perform_rendition, moved, Prod.map_snd, id_eq]

end Canvas

/-! ## Runs -/

/-- The bytes that ask for one event and do nothing else: one of the controls that move the cursor,
    or a whole escape sequence. -/
inductive Asks (strict : Bool) : List UInt8 → Event → Prop
  | carriageReturn : Asks strict [0x0D] .carriageReturn
  | lineFeed : Asks strict [0x0A] .lineFeed
  | escape {bytes : List UInt8} {answer : Except EscapeError Command}
      (whole : WholeEscape strict bytes answer)
      (unstopped : ∀ byte ∈ bytes, Event.isStop byte = false) :
      Asks strict bytes (Event.ofAnswer answer)

namespace Scan

variable {settings : Settings}

/-- A scan after an event that is met at the last of some bytes. -/
def carry (settings : Settings) (event : Event) (length : Nat) (scan : Scan width) : Scan width :=
  let (canvas, found) := scan.canvas.perform settings.rowLimit event
  { scan with
    canvas,
    journal := scan.journal.record found (scan.offset + (length - 1)),
    offset := scan.offset + length }

/-- Bytes that ask for an event carry it out at their last byte. -/
theorem run_of_asks {bytes : List UInt8} {event : Event} {scan : Scan width}
    (asks : Asks scan.collector.strict bytes event) (closed : scan.collector.isOpen = false)
    (continues : event.ending? settings.unhandled (scan.offset + (bytes.length - 1)) = none) :
    run settings bytes scan = (scan.carry settings event bytes.length, .exhausted) := by
  cases asks with
  | carriageReturn =>
    rw [run_singleton, step_of_asked (Event.ofByte_carriageReturn closed) continues]
    rfl
  | lineFeed =>
    rw [run_singleton, step_of_asked (Event.ofByte_lineFeed closed) continues]
    rfl
  | escape whole unstopped => exact run_of_wholeEscape whole unstopped closed continues

/-- Two events one after the other. -/
theorem run_of_asks_append {first second : List UInt8} {one other : Event} {scan : Scan width}
    (asksOne : Asks scan.collector.strict first one)
    (asksOther : Asks scan.collector.strict second other) (closed : scan.collector.isOpen = false)
    (oneContinues : ∀ offset, one.ending? settings.unhandled offset = none)
    (otherContinues : ∀ offset, other.ending? settings.unhandled offset = none) :
    run settings (first ++ second) scan
      = ((scan.carry settings one first.length).carry settings other second.length,
          .exhausted) := by
  rw [run_append (run_of_asks asksOne closed (oneContinues _))]
  exact @run_of_asks _ settings _ _ (scan.carry settings one first.length) asksOther closed
    (otherContinues _)

/-- In the other order two exchangeable events lead to the same scan but for the journal. -/
theorem carry_carry {one other : Event} {scan : Scan width}
    (exchangeable : scan.canvas.Exchangeable settings.rowLimit one other)
    (length otherLength : Nat) :
    (scan.carry settings other otherLength).carry settings one length
      = { (scan.carry settings one length).carry settings other otherLength with
          journal :=
            (scan.journal.record (scan.canvas.perform settings.rowLimit other).2
              (scan.offset + (otherLength - 1))).record
                (scan.canvas.perform settings.rowLimit one).2
                (scan.offset + otherLength + (length - 1)) } := by
  simp only [carry, exchangeable.result, exchangeable.foundFirst,
    Nat.add_right_comm _ otherLength length]

end Scan

/-! ## Conversions -/

/-- The notices of what is found at one byte, if somebody listens. -/
def Diagnostic.told (listening : Bool) (found : List Diagnostic) (offset : Nat) : Array Notice :=
  if listening then (found.map (Notice.mk · offset)).toArray else #[]

theorem Journal.notices_record_told (journal : Journal) (found : List Diagnostic) (offset : Nat) :
    (journal.record found offset).notices
      = journal.notices ++ Diagnostic.told journal.isKept found offset :=
  notices_record journal found offset

namespace Converter

variable {converter : Converter} {listening : Bool}

/-- Documents whose beginnings are scanned alike but for the journal are converted alike, each
    with the diagnostics of its beginning. -/
theorem convert_append_alike {beginning other : List UInt8} {journal : Journal}
    {middle : Scan converter.settings.width}
    (exhausted : Scan.run converter.settings beginning (Scan.start converter.settings listening)
      = (middle, .exhausted))
    (alike : Scan.run converter.settings other (Scan.start converter.settings listening)
      = ({ middle with journal }, .exhausted))
    (count : journal.count = middle.journal.count) (rest : List UInt8) (cause : Option String)
    (outlet : Outlet) :
    let first := converter.convert ⟨beginning ++ rest, cause⟩ outlet listening
    let second := converter.convert ⟨other ++ rest, cause⟩ outlet listening
    second.result = first.result ∧ second.outlet = first.outlet
      ∧ ∃ following : Array Notice,
          (∀ notice ∈ following, middle.offset ≤ notice.offset)
          ∧ first.notices = middle.journal.notices ++ following
          ∧ second.notices = journal.notices ++ following := by
  have scanFirst := scan_append exhausted rest cause
  have scanSecond := scan_append alike rest cause
  -- The rest is scanned alone, after either beginning.
  generalize alone : Scan.run converter.settings rest
    (Scan.fresh middle.collector middle.canvas listening) = scanned at scanFirst scanSecond
  have kept : scanned.1.journal.isKept = listening := by
    rw [← alone, Scan.isKept_run]
    exact Journal.isKept_blank listening
  have same (failure : Option Failure) :=
    @Outcome.ofScan_journal _ converter.settings.renderOptions outlet
      (scanned.1.after middle.journal middle.offset) (journal.after middle.offset scanned.1.journal)
      (congrArg (· + _) count) failure
  intro first second
  have outcome : second = { first with
      notices := (journal.after middle.offset scanned.1.journal).notices } := by
    simp only [first, second, convert_eq_ofScan, scanFirst, scanSecond]
    exact same _
  refine ⟨by rw [outcome], by rw [outcome],
    scanned.1.journal.notices.map (Notice.later middle.offset), ?_, ?_, ?_⟩
  · intro notice member
    obtain ⟨found, -, rfl⟩ := Array.mem_map.mp member
    exact Nat.le_add_right _ _
  · rw [notices_convert, scanFirst]
    exact Journal.notices_after (kept.trans (isKept_of_exhausted exhausted).symm) _
  · rw [outcome]
    exact Journal.notices_after (kept.trans (isKept_of_exhausted alike).symm) _

/-- The order of a graphic rendition and of an event that moves the cursor or erases is of no
    consequence.  Let a document begin with bytes that contain no stop byte, do not fail and leave
    no sequence open.  Whether a graphic rendition comes before a motion, a placement, an erasure, a
    carriage return or a line feed or right after it, the document comes to the same end, with the
    same summary or the same failure, and the same is written.  This holds too if the rendition is
    followed in part only.  The diagnostics are those of the beginning, at most one of each of the
    two, and those of the rest, at the same offsets.  The two in between are in the order of their
    events, each at the last byte of its own. -/
theorem convert_exchanges_rendition (converter : Converter) (listening : Bool) (outlet : Outlet)
    {beginning : List UInt8} (unstopped : ∀ byte ∈ beginning, Event.isStop byte = false)
    (accepted : (converter.scan ⟨beginning, none⟩ listening).2 = none)
    (closed : (converter.scan ⟨beginning, none⟩ listening).1.collector.isOpen = false)
    {rendition motion : List UInt8} {codes : List Nat} {event : Event}
    (changesPen : WholeEscape converter.settings.strict rendition (.ok (.rendition codes)))
    (uninterrupted : ∀ byte ∈ rendition, Event.isStop byte = false)
    (asks : Asks converter.settings.strict motion event) (penless : event.IsPenless)
    (rest : List UInt8) (cause : Option String) :
    let start := converter.convert ⟨beginning, none⟩ outlet listening
    let canvas := (converter.scan ⟨beginning, none⟩ listening).1.canvas
    let own := (canvas.perform converter.settings.rowLimit (.command (.rendition codes))).2
    let other := (canvas.perform converter.settings.rowLimit event).2
    let given := converter.convert ⟨beginning ++ rendition ++ motion ++ rest, cause⟩ outlet listening
    let swapped :=
      converter.convert ⟨beginning ++ motion ++ rendition ++ rest, cause⟩ outlet listening
    swapped.result = given.result ∧ swapped.outlet = given.outlet
      ∧ own.length ≤ 1 ∧ other.length ≤ 1
      ∧ ∃ following : Array Notice,
          (∀ notice ∈ following,
            beginning.length + rendition.length + motion.length ≤ notice.offset)
          ∧ given.notices = start.notices
              ++ Diagnostic.told listening own (beginning.length + (rendition.length - 1))
              ++ Diagnostic.told listening other
                (beginning.length + rendition.length + (motion.length - 1))
              ++ following
          ∧ swapped.notices = start.notices
              ++ Diagnostic.told listening other (beginning.length + (motion.length - 1))
              ++ Diagnostic.told listening own
                (beginning.length + motion.length + (rendition.length - 1))
              ++ following := by
  obtain ⟨exhausted, offset⟩ := run_of_accepted unstopped accepted
  simp only [notices_convert converter ⟨beginning, none⟩]
  generalize (converter.scan ⟨beginning, none⟩ listening).1 = middle at *
  rw [← strict_of_exhausted exhausted] at changesPen asks
  have asksRendition : Asks middle.collector.strict rendition (.command (.rendition codes)) :=
    .escape changesPen uninterrupted
  have exchangeable := Canvas.exchangeable_of_penless penless converter.settings.rowLimit codes
    middle.canvas
  have continues := penless.ending?_eq_none converter.settings.unhandled
  have given := (Scan.run_append exhausted _).trans
    (Scan.run_of_asks_append asksRendition asks closed (fun _ => rfl) continues)
  have swapped := (Scan.run_append exhausted _).trans
    (Scan.run_of_asks_append asks asksRendition closed continues fun _ => rfl)
  rw [Scan.carry_carry exchangeable] at swapped
  rw [← List.append_assoc] at given swapped
  obtain ⟨result, written, following, late, before, after⟩ := convert_append_alike given swapped
    (by simp only [Scan.carry, Journal.count_record, exchangeable.foundSecond]; omega)
    rest cause outlet
  refine ⟨result, written, ?_, ?_, following, ?_, ?_, ?_⟩
  · exact Canvas.length_perform_le_one _ (by simp) _
  · exact Canvas.length_perform_le_one _ penless.ne_draw _
  · simpa only [Scan.carry, offset] using late
  · rw [before]
    simp only [Scan.carry, exchangeable.foundSecond, Journal.notices_record_told,
      Journal.isKept_record, isKept_of_exhausted exhausted, offset]
  · rw [after]
    simp only [Journal.notices_record_told, Journal.isKept_record, isKept_of_exhausted exhausted,
      offset]

/-- A rendition that is followed up to its second code, and a line feed past the row limit. -/
theorem convert_exchanges_partial_rendition :
    (convert ⟨{ width := 4, rowLimit := 1 }, by decide⟩
          ⟨[0x41] ++ [0x0A] ++ [0x1B, 0x5B, 0x33, 0x31, 0x3B, 0x31, 0x30, 0x6D] ++ [0x42], none⟩ {}
          true).result
        = (convert ⟨{ width := 4, rowLimit := 1 }, by decide⟩
          ⟨[0x41] ++ [0x1B, 0x5B, 0x33, 0x31, 0x3B, 0x31, 0x30, 0x6D] ++ [0x0A] ++ [0x42], none⟩ {}
          true).result
      ∧ (convert ⟨{ width := 4, rowLimit := 1 }, by decide⟩
          ⟨[0x41] ++ [0x1B, 0x5B, 0x33, 0x31, 0x3B, 0x31, 0x30, 0x6D] ++ [0x0A] ++ [0x42], none⟩ {}
          true).notices
        = #[⟨.rendition (.unknownCode 10), 8⟩, ⟨.rowLimit 2 1, 9⟩]
      ∧ (convert ⟨{ width := 4, rowLimit := 1 }, by decide⟩
          ⟨[0x41] ++ [0x0A] ++ [0x1B, 0x5B, 0x33, 0x31, 0x3B, 0x31, 0x30, 0x6D] ++ [0x42], none⟩ {}
          true).notices
        = #[⟨.rowLimit 2 1, 1⟩, ⟨.rendition (.unknownCode 10), 9⟩] := by
  have rendition : WholeEscape false [0x1B, 0x5B, 0x33, 0x31, 0x3B, 0x31, 0x30, 0x6D]
      (.ok (.rendition [31, 10])) :=
    ⟨[0x5B, 0x33, 0x31, 0x3B, 0x31, 0x30], 0x6D, rfl, rfl, rfl⟩
  have unstopped : ∀ byte ∈ [0x41], Event.isStop byte = false := by simp [Event.isStop]
  obtain ⟨result, -⟩ := convert_exchanges_rendition ⟨{ width := 4, rowLimit := 1 }, by decide⟩ true
    {} unstopped rfl rfl rendition (by simp [Event.isStop]) .lineFeed .lineFeed [0x42] none
  exact ⟨result, by decide +kernel, by decide +kernel⟩

end Converter

end AnsiCanvas
