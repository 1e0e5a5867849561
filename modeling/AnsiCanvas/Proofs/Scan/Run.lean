import AnsiCanvas.Scan

/-! # Runs of a scan

A run is seen as its states, from the one it starts in to the one it ends in, and as its
trace, the events with the states that found them.  An event that ends a run would change
nothing on the canvas, so on the canvas every byte is an event carried out.
-/

namespace AnsiCanvas

variable {width : Nat}

theorem Canvas.perform_of_ending {policy : UnhandledPolicy} {offset : Nat} {event : Event}
    {ending : Ending} (ends : event.ending? policy offset = some ending) (limit : Nat)
    (canvas : Canvas width) : (canvas.perform limit event).1 = canvas := by
  cases event with
  | stop | rejected => rfl
  | command command =>
    cases command with
    | unhandled => rfl
    | move | place | eraseDisplay | eraseLine | save | restore | rendition | ignored => cases ends
  | draw | carriageReturn | lineFeed | silence => cases ends

namespace Scan

def event (scan : Scan width) (byte : UInt8) : Event := (Event.ofByte scan.collector byte).2

theorem canvas_step (settings : Settings) (byte : UInt8) (scan : Scan width) :
    (scan.step settings byte).1.canvas
      = (scan.canvas.perform settings.rowLimit (scan.event byte)).1 := by
  obtain ⟨collector, canvas, journal, offset⟩ := scan
  simp only [step, event]
  -- What ends a run is not carried out, and would have had no effect.
  split
  · next ends => exact (Canvas.perform_of_ending ends _ _).symm
  · rfl

/-- The events of a run, each with the state that it finds. -/
def trace (settings : Settings) : List UInt8 → Scan width → List (Scan width × Event)
  | [], _ => []
  | byte :: rest, scan =>
    (scan, scan.event byte) :: match scan.step settings byte with
      | (next, none) => trace settings rest next
      | (_, some _) => []

/-- The states of a run, the last one included. -/
def states (settings : Settings) (bytes : List UInt8) (scan : Scan width) : List (Scan width) :=
  (trace settings bytes scan).map Prod.fst ++ [(run settings bytes scan).1]

@[simp] theorem states_nil (settings : Settings) (scan : Scan width) :
    states settings [] scan = [scan] := rfl

theorem states_cons_of_none {settings : Settings} {byte : UInt8} {scan next : Scan width}
    (continues : scan.step settings byte = (next, none)) (rest : List UInt8) :
    states settings (byte :: rest) scan = scan :: states settings rest next := by
  simp only [states, trace, run, continues, List.map_cons, List.cons_append]

theorem states_cons_of_some {settings : Settings} {byte : UInt8} {scan last : Scan width}
    {ending : Ending} (ends : scan.step settings byte = (last, some ending)) (rest : List UInt8) :
    states settings (byte :: rest) scan = [scan, last] := by
  simp only [states, trace, run, ends, List.map_cons, List.map_nil, List.cons_append,
    List.nil_append]

theorem states_zero (settings : Settings) (bytes : List UInt8) (scan : Scan width) :
    (states settings bytes scan)[0]? = some scan := by
  cases bytes with
  | nil => rfl
  | cons byte rest => rfl

/-- Every state but the first is reached from the one before it by a step. -/
theorem states_succ {settings : Settings} {bytes : List UInt8} {scan after : Scan width}
    {count : Nat} (reached : (states settings bytes scan)[count + 1]? = some after) :
    ∃ before byte, (states settings bytes scan)[count]? = some before
      ∧ (before.step settings byte).1 = after := by
  induction bytes generalizing scan count with
  | nil => simp at reached
  | cons byte rest ih =>
    cases taken : scan.step settings byte with
    | mk next ending =>
      cases ending with
      | none =>
        rw [states_cons_of_none taken, List.getElem?_cons_succ] at reached
        cases count with
        | zero =>
          rw [states_zero] at reached
          obtain rfl := Option.some.inj reached
          exact ⟨scan, byte, states_zero _ _ _, congrArg Prod.fst taken⟩
        | succ count =>
          rw [states_cons_of_none taken, List.getElem?_cons_succ]
          exact ih reached
      | some ending =>
        rw [states_cons_of_some taken, List.getElem?_cons_succ] at reached
        cases count with
        | zero =>
          obtain rfl := Option.some.inj reached
          exact ⟨scan, byte, states_zero _ _ _, congrArg Prod.fst taken⟩
        | succ count => simp at reached

/-- What a step preserves holds in every state of a run. -/
theorem states_invariant {settings : Settings} (Invariant : Scan width → Prop)
    (step : ∀ scan byte, Invariant scan → Invariant (scan.step settings byte).1)
    {scan : Scan width} (start : Invariant scan) {bytes : List UInt8} {count : Nat}
    {state : Scan width} (reached : (states settings bytes scan)[count]? = some state) :
    Invariant state := by
  induction count generalizing state with
  | zero =>
    rw [states_zero] at reached
    obtain rfl := Option.some.inj reached
    exact start
  | succ count ih =>
    obtain ⟨before, byte, earlier, rfl⟩ := states_succ reached
    exact step before byte (ih earlier)

/-- What a step preserves holds at the end of a run. -/
theorem run_invariant {settings : Settings} (Invariant : Scan width → Prop)
    (step : ∀ scan byte, Invariant scan → Invariant (scan.step settings byte).1)
    {scan : Scan width} (start : Invariant scan) (bytes : List UInt8) :
    Invariant (run settings bytes scan).1 := by
  induction bytes generalizing scan with
  | nil => exact start
  | cons byte rest ih =>
    have kept := step scan byte start
    rw [run]
    generalize scan.step settings byte = stepped at kept ⊢
    rcases stepped with ⟨next, _ | ending⟩
    · exact ih kept
    · exact kept

end Scan

end AnsiCanvas
