import AnsiCanvas.Proofs.Canvas.Findings
import AnsiCanvas.Proofs.Scan.Bounds
import AnsiCanvas.Proofs.Scan.Ending
import AnsiCanvas.Proofs.Scan.Lockstep

/-! # The diagnostics of a conversion

The notices of a run are what its events find, event by event and each at the offset of its
byte.  As the offsets along a run count up one by one, the notices are in order, and those that
share an offset are what a single event has found.
-/

namespace AnsiCanvas

variable {width : Nat}

theorem Event.eq_of_ofByte_eq_draw {collector : Collector} {byte drawn : UInt8}
    (draws : (ofByte collector byte).2 = .draw drawn) : byte = drawn := by
  simp only [ofByte] at draws
  repeat' split at draws
  all_goals cases draws
  rfl

namespace Scan

/-! ## The offsets of a trace -/

section

variable {settings : Settings}

theorem trace_cons_of_none {byte : UInt8} {scan next : Scan width}
    (continues : scan.step settings byte = (next, none)) (rest : List UInt8) :
    trace settings (byte :: rest) scan = (scan, scan.event byte) :: trace settings rest next := by
  simp only [trace, continues]

theorem trace_cons_of_some {byte : UInt8} {scan last : Scan width} {ending : Ending}
    (ends : scan.step settings byte = (last, some ending)) (rest : List UInt8) :
    trace settings (byte :: rest) scan = [(scan, scan.event byte)] := by
  simp only [trace, ends]

theorem offset_of_step {byte : UInt8} {scan next : Scan width} {ending : Option Ending}
    (stepped : scan.step settings byte = (next, ending)) : next.offset = scan.offset + 1 := by
  have offset := (step_frame settings byte scan).2.2
  rwa [stepped] at offset

/-- An entry of a trace is about the byte at its place, which is also its offset. -/
theorem entry_of_trace {bytes : List UInt8} {scan : Scan width} {index : Nat}
    {state : Scan width} {event : Event}
    (entry : (trace settings bytes scan)[index]? = some (state, event)) :
    state.offset = scan.offset + index
      ∧ ∃ byte, bytes[index]? = some byte ∧ event = state.event byte := by
  induction bytes generalizing scan index with
  | nil => simp [trace] at entry
  | cons byte rest ih =>
    cases index with
    | zero =>
      obtain ⟨rfl, rfl⟩ := Prod.mk.inj (Option.some.inj entry)
      exact ⟨rfl, byte, rfl, rfl⟩
    | succ index =>
      cases stepped : scan.step settings byte with
      | mk next ending =>
        cases ending with
        | none =>
          rw [trace_cons_of_none stepped, List.getElem?_cons_succ] at entry
          obtain ⟨offset, found⟩ := ih entry
          rw [offset_of_step stepped] at offset
          exact ⟨by omega, found⟩
        | some ending =>
          rw [trace_cons_of_some stepped] at entry
          simp at entry

/-- A run takes as many bytes as its trace has entries. -/
theorem offset_run (settings : Settings) (bytes : List UInt8) (scan : Scan width) :
    (run settings bytes scan).1.offset = scan.offset + (trace settings bytes scan).length := by
  induction bytes generalizing scan with
  | nil => rfl
  | cons byte rest ih =>
    cases stepped : scan.step settings byte with
    | mk next ending =>
      have offset := offset_of_step stepped
      cases ending with
      | none =>
        rw [run_cons_of_none stepped, trace_cons_of_none stepped, ih, offset, List.length_cons]
        omega
      | some ending =>
        rw [run, stepped, trace_cons_of_some stepped]
        exact offset

theorem length_trace_le (settings : Settings) (bytes : List UInt8) (scan : Scan width) :
    (trace settings bytes scan).length ≤ bytes.length := by
  by_contra longer
  -- An entry past the last byte would be about no byte.
  have past := List.getElem?_eq_getElem (Nat.lt_of_not_le longer)
  obtain ⟨-, byte, there, -⟩ := entry_of_trace past
  simp at there

theorem bounded_of_trace (nonempty : 0 < width) {bytes : List UInt8} {scan : Scan width}
    (bounded : scan.canvas.Bounded settings.rowLimit) {index : Nat} {state : Scan width}
    {event : Event} (entry : (trace settings bytes scan)[index]? = some (state, event)) :
    state.canvas.Bounded settings.rowLimit := by
  have inside : index < ((trace settings bytes scan).map Prod.fst).length := by
    rw [List.length_map]
    exact (List.getElem?_eq_some_iff.mp entry).1
  have reached : (states settings bytes scan)[index]? = some state := by
    rw [states, List.getElem?_append_left inside, List.getElem?_map, entry, Option.map_some]
  exact bounded_of_reached nonempty bounded reached

/-! ## The notices of a trace -/

/-- The notices that an event gives rise to in the state that it finds.  There are none of an
    event that ends the scan. -/
def findings (settings : Settings) : Scan width × Event → List Notice
  | (state, event) =>
    match event.ending? settings.unhandled state.offset with
    | some _ => []
    | none => (state.canvas.perform settings.rowLimit event).2.map (⟨·, state.offset⟩)

theorem mem_findings {state : Scan width} {event : Event} {notice : Notice}
    (member : notice ∈ findings settings (state, event)) :
    notice.offset = state.offset
      ∧ event.ending? settings.unhandled state.offset = none
      ∧ notice.diagnostic ∈ (state.canvas.perform settings.rowLimit event).2 := by
  rw [findings] at member
  split at member
  · cases member
  · next continues =>
    obtain ⟨diagnostic, found, rfl⟩ := List.mem_map.mp member
    exact ⟨rfl, continues, found⟩

theorem notices_step_of_heard (settings : Settings) {scan : Scan width}
    (heard : scan.journal.isKept = true) (byte : UInt8) :
    (scan.step settings byte).1.journal.notices.toList
      = scan.journal.notices.toList ++ findings settings (scan, scan.event byte) := by
  rw [findings]
  split
  · next ends =>
    rw [step_of_ending ends, List.append_nil]
  · next continues =>
    rw [step_of_continuing continues]
    dsimp only
    rw [Journal.notices_record, if_pos heard, Array.toList_append]

theorem isKept_step (settings : Settings) (byte : UInt8) (scan : Scan width) :
    (scan.step settings byte).1.journal.isKept = scan.journal.isKept := by
  have kept := isKept_run settings [byte] scan
  rwa [run_singleton] at kept

/-- A run to which somebody listens tells what its events find, all of it and in their order. -/
theorem notices_run_of_heard (bytes : List UInt8) {scan : Scan width}
    (heard : scan.journal.isKept = true) :
    (run settings bytes scan).1.journal.notices.toList
      = scan.journal.notices.toList
        ++ (trace settings bytes scan).flatMap (findings settings) := by
  induction bytes generalizing scan with
  | nil => exact (List.append_nil _).symm
  | cons byte rest ih =>
    have told := notices_step_of_heard settings heard byte
    have kept := (isKept_step settings byte scan).trans heard
    cases stepped : scan.step settings byte with
    | mk next ending =>
      rw [stepped] at told kept
      cases ending with
      | none =>
        rw [run_cons_of_none stepped, trace_cons_of_none stepped, ih kept, told,
          List.flatMap_cons, List.append_assoc]
      | some ending =>
        rw [run, stepped, trace_cons_of_some stepped, List.flatMap_singleton]
        exact told

/-- What a run finds is about the bytes that it takes. -/
theorem offset_of_mem_trace {bytes : List UInt8} {scan : Scan width} {notice : Notice}
    (member : notice ∈ (trace settings bytes scan).flatMap (findings settings)) :
    scan.offset ≤ notice.offset ∧ notice.offset < (run settings bytes scan).1.offset := by
  obtain ⟨⟨state, event⟩, entry, found⟩ := List.mem_flatMap.mp member
  obtain ⟨index, inside, there⟩ := List.mem_iff_getElem.mp entry
  have offset := (mem_findings found).1
  rw [(entry_of_trace (List.getElem?_eq_some_iff.mpr ⟨inside, there⟩)).1] at offset
  rw [offset_run]
  omega

/-- The notices of a run are in the order of their offsets. -/
theorem pairwise_offset_trace (bytes : List UInt8) (scan : Scan width) :
    ((trace settings bytes scan).flatMap (findings settings)).Pairwise
      fun first second => first.offset ≤ second.offset := by
  rw [List.pairwise_flatMap]
  constructor
  · rintro ⟨state, event⟩ -
    refine List.pairwise_of_forall_mem_list fun first inFirst second inSecond => ?_
    exact Nat.le_of_eq ((mem_findings inFirst).1.trans (mem_findings inSecond).1.symm)
  · rw [List.pairwise_iff_getElem]
    intro earlier later inFirst inSecond before first foundFirst second foundSecond
    have one := entry_of_trace (List.getElem?_eq_getElem inFirst)
    have two := entry_of_trace (List.getElem?_eq_getElem inSecond)
    rw [(mem_findings foundFirst).1, (mem_findings foundSecond).1, one.1, two.1]
    omega

/-- The notices about one byte are what its event finds. -/
theorem filter_offset_trace (bytes : List UInt8) (scan : Scan width) (index : Nat) :
    ((trace settings bytes scan).flatMap (findings settings)).filter
        (·.offset = scan.offset + index)
      = (trace settings bytes scan)[index]?.toList.flatMap (findings settings) := by
  induction bytes generalizing scan index with
  | nil => rfl
  | cons byte rest ih =>
    -- What comes later in the trace has later offsets.
    have late {next : Scan width} (after : next.offset = scan.offset + 1) :
        ((trace settings rest next).flatMap (findings settings)).filter
          (·.offset = scan.offset) = [] := by
      rw [List.filter_eq_nil_iff]
      intro notice member
      have later := (offset_of_mem_trace member).1
      simp only [decide_eq_true_eq]
      omega
    have here : ∀ notice ∈ findings settings (scan, scan.event byte),
        notice.offset = scan.offset := fun notice member => (mem_findings member).1
    cases stepped : scan.step settings byte with
    | mk next ending =>
      have offset := offset_of_step stepped
      cases index with
      | zero =>
        have all : (findings settings (scan, scan.event byte)).filter (·.offset = scan.offset)
            = findings settings (scan, scan.event byte) := by simpa using here
        cases ending with
        | none =>
          rw [trace_cons_of_none stepped, List.flatMap_cons, List.filter_append, Nat.add_zero, all,
            late offset]
          simp
        | some ending =>
          rw [trace_cons_of_some stepped, List.flatMap_singleton, Nat.add_zero, all]
          simp
      | succ index =>
        have none : (findings settings (scan, scan.event byte)).filter
            (·.offset = scan.offset + (index + 1)) = [] := by
          rw [List.filter_eq_nil_iff]
          intro notice member
          simp [here notice member]
        cases ending with
        | none =>
          have rest := ih next index
          rw [offset, Nat.add_assoc, Nat.add_comm 1] at rest
          rw [trace_cons_of_none stepped, List.flatMap_cons, List.filter_append, none, rest]
          simp
        | some ending =>
          rw [trace_cons_of_some stepped, List.flatMap_singleton, none]
          simp

/-- Two notices about one byte are those of a byte drawn past the width and the row limit. -/
theorem findings_of_positive (settings : Settings) {state : Scan width}
    (cursor : state.canvas.cursor.Positive) (event : Event) :
    (findings settings (state, event)).length ≤ 1
      ∨ ∃ byte column row exceeded, event = .draw byte
          ∧ findings settings (state, event)
            = [⟨.invalidPosition (.beyondWidth column row width), state.offset⟩,
              ⟨.rowLimit exceeded settings.rowLimit, state.offset⟩] := by
  rw [findings]
  split
  · exact .inl (Nat.zero_le _)
  · obtain few | ⟨byte, column, row, exceeded, draws, found⟩ :=
      Canvas.found_perform settings.rowLimit event cursor
    · exact .inl (by rwa [List.length_map])
    · exact .inr ⟨byte, column, row, exceeded, draws, by rw [found]; rfl⟩

theorem filter_offset_few (nonempty : 0 < width) (bytes : List UInt8) {scan : Scan width}
    (bounded : scan.canvas.Bounded settings.rowLimit) (index : Nat) :
    let here := ((trace settings bytes scan).flatMap (findings settings)).filter
      (·.offset = scan.offset + index)
    here.length ≤ 1
      ∨ ∃ state byte column row exceeded,
          bytes[index]? = some byte
            ∧ (trace settings bytes scan)[index]? = some (state, .draw byte)
            ∧ here
              = [⟨.invalidPosition (.beyondWidth column row width), scan.offset + index⟩,
                ⟨.rowLimit exceeded settings.rowLimit, scan.offset + index⟩] := by
  dsimp only
  rw [filter_offset_trace]
  cases entry : (trace settings bytes scan)[index]? with
  | none => exact .inl (Nat.zero_le _)
  | some found =>
    obtain ⟨state, event⟩ := found
    obtain ⟨place, byte, there, rfl⟩ := entry_of_trace entry
    have cursor := (bounded_of_trace nonempty bounded entry).cursor.toPositive
    rw [Option.toList_some, List.flatMap_singleton, ← place]
    obtain few | ⟨drawn, column, row, exceeded, draws, found⟩ :=
      findings_of_positive settings cursor (state.event byte)
    · exact .inl few
    · obtain rfl := Event.eq_of_ofByte_eq_draw draws
      exact .inr ⟨state, byte, column, row, exceeded, there, by rw [draws], found⟩

end

end Scan

/-- Journals that keep as many notices as they count. -/
structure Journal.Complete (journal : Journal) : Prop where
  heard : journal.isKept = true
  count : journal.count = journal.notices.size

theorem Journal.Complete.record {journal : Journal} (complete : journal.Complete)
    (found : List Diagnostic) (offset : Nat) : (journal.record found offset).Complete where
  heard := (isKept_record journal found offset).trans complete.heard
  count := by
    rw [count_record, notices_record, if_pos complete.heard, complete.count]
    simp

theorem Scan.complete_run (settings : Settings) (bytes : List UInt8) :
    (run settings bytes (start settings true)).1.journal.Complete := by
  refine run_invariant (fun state => state.journal.Complete) ?_ ⟨rfl, rfl⟩ bytes
  intro state byte complete
  cases ends : (state.event byte).ending? settings.unhandled state.offset with
  | some ending =>
    rw [step_of_ending ends]
    exact complete
  | none =>
    rw [step_of_continuing ends]
    exact complete.record _ _

namespace Converter

/-- The diagnostics of a conversion are complete and in order.  They are those that the events
    of the scan find, in that order and at the offsets of bytes that have been taken.  Two share
    an offset only where a byte is drawn beyond the width and leads past the row limit, and more
    never do.  No position is at zero, and no escape with a foreign final byte is reported.  If
    the conversion succeeds, its summary has their number.  Whether somebody listens to them
    makes no difference to anything else. -/
theorem convert_notices_in_order (converter : Converter) (source : Source) (outlet : Outlet) :
    let heard := converter.convert source outlet true
    let taken := (converter.scan source true).1.offset
    let entries := Scan.trace converter.settings source.bytes (Scan.start converter.settings true)
    heard.notices.toList = entries.flatMap (Scan.findings converter.settings)
      ∧ heard.notices.toList.Pairwise (fun first second => first.offset ≤ second.offset)
      ∧ taken ≤ source.bytes.length
      ∧ (∀ notice ∈ heard.notices,
          notice.offset < taken
            ∧ (∀ byte sequence,
                notice.diagnostic ≠ .malformedEscape (.unknownTerminator byte sequence))
            ∧ ∀ column row, notice.diagnostic ≠ .invalidPosition (.zero column row))
      ∧ (∀ offset,
          let here := heard.notices.toList.filter (·.offset = offset)
          here.length ≤ 1
            ∨ ∃ state byte column row exceeded,
                source.bytes[offset]? = some byte
                  ∧ entries[offset]? = some (state, .draw byte)
                  ∧ here
                    = [⟨.invalidPosition (.beyondWidth column row converter.settings.width), offset⟩,
                      ⟨.rowLimit exceeded converter.settings.rowLimit, offset⟩])
      ∧ (∀ summary, heard.result = .ok summary →
          summary.bytesRead = taken ∧ summary.diagnostics = heard.notices.size)
      ∧ converter.convert source outlet false = { heard with notices := #[] } := by
  intro heard taken entries
  have blank := Canvas.Bounded.blank converter.width_pos converter.settings.rowLimit
  have told : heard.notices.toList = entries.flatMap (Scan.findings converter.settings) := by
    rw [notices_convert, scan_fst]
    exact (Scan.notices_run_of_heard source.bytes rfl).trans (List.nil_append _)
  have length : taken = entries.length := by
    change (converter.scan source true).1.offset = _
    rw [scan_fst, Scan.offset_run]
    exact Nat.zero_add _
  refine ⟨told, ?_, ?_, ?_, ?_, ?_, converter.convert_unheard source outlet⟩
  · rw [told]
    exact Scan.pairwise_offset_trace source.bytes _
  · rw [length]
    exact Scan.length_trace_le _ source.bytes _
  · intro notice member
    rw [← Array.mem_toList_iff, told] at member
    obtain ⟨⟨state, event⟩, entry, found⟩ := List.mem_flatMap.mp member
    obtain ⟨index, entry⟩ := List.mem_iff_getElem?.mp entry
    obtain ⟨-, continues, found⟩ := Scan.mem_findings found
    have finding := Canvas.finding_of_mem found
    have cursor := (Scan.bounded_of_trace converter.width_pos blank entry).cursor.toPositive
    refine ⟨?_, finding.ne_unknownTerminator continues, finding.ne_zero cursor⟩
    have within := (Scan.offset_of_mem_trace member).2
    rwa [← scan_fst] at within
  · intro offset
    have few := @Scan.filter_offset_few _ converter.settings converter.width_pos source.bytes
      (Scan.start converter.settings true) blank offset
    rw [show (Scan.start converter.settings true).offset + offset = offset from Nat.zero_add _]
      at few
    dsimp only
    rw [told]
    exact few
  · intro summary succeeds
    obtain rfl := eq_summary_of_ok succeeds
    refine ⟨rfl, ?_⟩
    rw [notices_convert, scan_fst]
    exact (Scan.complete_run converter.settings source.bytes).count

/-- Two diagnostics for a byte far to the right on the last row, and one for the code after. -/
theorem convert_notices_of_far_byte :
    (convert ⟨{ width := 4, rowLimit := 1 }, by decide⟩
        ⟨"\x1b[1;9HA\x1b[10m".toUTF8.data.toList, none⟩ {} true).result = .ok ⟨12, 1, 3⟩
      ∧ (convert ⟨{ width := 4, rowLimit := 1 }, by decide⟩
          ⟨"\x1b[1;9HA\x1b[10m".toUTF8.data.toList, none⟩ {} true).notices.size = 3
      ∧ (convert ⟨{ width := 4, rowLimit := 1 }, by decide⟩
          ⟨"\x1b[1;9HA\x1b[10m".toUTF8.data.toList, none⟩ {} true).notices.toList.filter
            (·.offset = 6)
        = [⟨.invalidPosition (.beyondWidth 9 1 4), 6⟩, ⟨.rowLimit 3 1, 6⟩] := by
  have succeeds : (convert ⟨{ width := 4, rowLimit := 1 }, by decide⟩
      ⟨"\x1b[1;9HA\x1b[10m".toUTF8.data.toList, none⟩ {} true).result = .ok ⟨12, 1, 3⟩ := by
    decide +kernel
  have both : (convert ⟨{ width := 4, rowLimit := 1 }, by decide⟩
      ⟨"\x1b[1;9HA\x1b[10m".toUTF8.data.toList, none⟩ {} true).notices.toList.filter
        (·.offset = 6)
      = [⟨.invalidPosition (.beyondWidth 9 1 4), 6⟩, ⟨.rowLimit 3 1, 6⟩] := by
    decide +kernel
  obtain ⟨-, -, -, -, -, counted, -⟩ := convert_notices_in_order
    ⟨{ width := 4, rowLimit := 1 }, by decide⟩ ⟨"\x1b[1;9HA\x1b[10m".toUTF8.data.toList, none⟩ {}
  exact ⟨succeeds, (counted _ succeeds).2.symm, both⟩

end Converter

end AnsiCanvas
