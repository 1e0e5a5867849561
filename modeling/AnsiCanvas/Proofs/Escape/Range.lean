import AnsiCanvas.Event

/-! # The range of commands

However a sequence is written, the numbers of the command read from it are in range.  So
a command can be carried out without looking at its numbers again.
-/

namespace AnsiCanvas

theorem Parameter.foldl_addDigit_le (digits : List Char) {value : Nat} (small : value ≤ largest) :
    digits.foldl addDigit value ≤ largest := by
  induction digits generalizing value with
  | nil => exact small
  | cons digit digits ih => exact ih (Nat.min_le_right _ _)

theorem Parameter.positive_read_le (text : List Char) : (read text).positive ≤ largest := by
  have one : 1 ≤ largest := by decide
  rw [read]
  split
  · exact one
  · split
    · exact Nat.max_le.mpr ⟨foldl_addDigit_le _ (Nat.zero_le _), one⟩
    · exact one

theorem Parameter.one_le_positive (parameter : Parameter) : 1 ≤ parameter.positive := by
  cases parameter with
  | number value => exact Nat.le_max_right _ _
  | absent | invalid => exact Nat.le_refl _

namespace Command

/-- A coordinate or an amount as a parameter can give it. -/
def InReach (number : Nat) : Prop := 1 ≤ number ∧ number ≤ Parameter.largest

/-- A command whose numbers are as a sequence can give them, and whose letter is known to
    be ignored or unhandled. -/
def InRange : Command → Prop
  | move _ amount => InReach amount
  | place row column => InReach row ∧ InReach column
  | rendition codes => codes ≠ [] ∧ ∀ code ∈ codes, code < 256
  | ignored letter => Family.ofLetter? letter = some .ignored
  | unhandled letter => Family.ofLetter? letter = some .bare
  | eraseDisplay _ | eraseLine _ | save | restore => True

theorem inReach_positive {text : List Char} {parameters : List Parameter}
    (read : parameters? text = some parameters) (index : Nat) :
    InReach (positive parameters[index]?) := by
  refine ⟨Parameter.one_le_positive _, ?_⟩
  have one : 1 ≤ Parameter.largest := by decide
  unfold parameters? at read
  split at read
  · obtain rfl := Option.some.inj read
    exact one
  · next body _ =>
    obtain rfl := Option.some.inj read
    rw [positive, List.getElem?_map]
    cases (body.splitOn ';')[index]? with
    | none => exact one
    | some part => exact Parameter.positive_read_le part
  · cases read

theorem renditionCodes?_number_cons (value : Nat) (parameters : List Parameter) :
    renditionCodes? (.number value :: parameters)
      = if value < 256 then (renditionCodes? parameters).map (value :: ·) else none := by
  rw [renditionCodes?, renditionCodes?, List.mapM_cons]
  by_cases small : value < 256
  · simp only [small, ↓reduceIte, Option.map_eq_bind]
    rfl
  · simp [small]

/-- Parameters spell codes if all of them are numbers of a byte. -/
theorem renditionCodes?_eq_some_iff {parameters : List Parameter} {codes : List Nat} :
    renditionCodes? parameters = some codes
      ↔ parameters = codes.map .number ∧ ∀ code ∈ codes, code < 256 := by
  induction parameters generalizing codes with
  | nil => cases codes <;> simp [renditionCodes?]
  | cons parameter parameters ih =>
    cases parameter with
    | absent | invalid => cases codes <;> simp [renditionCodes?]
    | number value =>
      rw [renditionCodes?_number_cons]
      constructor
      · intro spelled
        split at spelled
        · next small =>
          obtain ⟨rest, others, rfl⟩ := Option.map_eq_some_iff.mp spelled
          obtain ⟨rfl, bytes⟩ := ih.mp others
          exact ⟨rfl, List.forall_mem_cons.mpr ⟨small, bytes⟩⟩
        · cases spelled
      · rintro ⟨same, bytes⟩
        cases codes with
        | nil => cases same
        | cons code codes =>
          obtain ⟨first, rfl⟩ := List.cons.inj same
          obtain rfl := Parameter.number.inj first
          obtain ⟨small, others⟩ := List.forall_mem_cons.mp bytes
          rw [if_pos small, ih.mpr ⟨rfl, others⟩, Option.map_some]

theorem ofParameters_inRange {text : List Char} {parameters : List Parameter} {kind : Control}
    {command : Command} (read : parameters? text = some parameters)
    (accepted : ofParameters parameters kind = .ok command) : command.InRange := by
  cases kind with
  | motion direction =>
    rw [ofParameters] at accepted
    split at accepted
    · cases accepted
    · obtain rfl := Except.ok.inj accepted
      exact inReach_positive read 0
  | place =>
    rw [ofParameters] at accepted
    split at accepted
    · cases accepted
    · obtain rfl := Except.ok.inj accepted
      exact ⟨inReach_positive read 0, inReach_positive read 1⟩
  | eraseDisplay | eraseLine =>
    rw [ofParameters] at accepted
    split at accepted
    · cases accepted
    · obtain rfl := Except.ok.inj accepted
      trivial
  | save | restore =>
    obtain rfl := Except.ok.inj accepted
    trivial
  | rendition =>
    rw [ofParameters] at accepted
    split at accepted
    · obtain rfl := Except.ok.inj accepted
      exact ⟨List.cons_ne_nil _ _, by simp⟩
    · next nonempty =>
      split at accepted
      · next codes spelled =>
        obtain rfl := Except.ok.inj accepted
        obtain ⟨rfl, bytes⟩ := renditionCodes?_eq_some_iff.mp spelled
        refine ⟨?_, bytes⟩
        -- No codes would mean no parameters, and these are taken for a reset instead.
        rintro rfl
        exact nonempty rfl
      · cases accepted

/-- Every command read from a sequence is in range. -/
theorem ofSequence_inRange {letter : UInt8} {bytes : List UInt8} {command : Command}
    (accepted : ofSequence letter bytes = .ok command) : command.InRange := by
  rw [ofSequence] at accepted
  cases known : Family.ofLetter? letter with
  | none => simp [known] at accepted
  | some family =>
    simp only [known] at accepted
    split at accepted
    · next read =>
      obtain rfl := Except.ok.inj accepted
      cases family with
      | ignored =>
        obtain rfl := Except.ok.inj read
        exact known
      | bare =>
        rw [ofFamily] at read
        split at read
        · obtain rfl := Except.ok.inj read
          exact known
        · cases read
      | control kind =>
        rw [ofFamily] at read
        split at read
        · next parameters =>
          exact ofParameters_inRange parameters read
        · cases read
    · cases accepted

end Command

theorem Collector.feed_inRange {collector : Collector} {byte : UInt8} {command : Command}
    (answered : (collector.feed byte).2 = some (.ok command)) : command.InRange := by
  obtain ⟨strict, _ | bytes⟩ := collector
  · cases answered
  · simp only [feed] at answered
    split at answered
    · cases answered
    · split at answered
      · cases answered
      · -- Only a terminator is answered with a command.
        split at answered
        · exact Command.ofSequence_inRange (Option.some.inj answered)
        · split at answered
          · cases answered
          · cases answered

/-- Every command that a byte asks for is in range. -/
theorem Event.ofByte_inRange {collector : Collector} {byte : UInt8} {asked : Command}
    (event : (ofByte collector byte).2 = command asked) : asked.InRange := by
  rw [ofByte] at event
  split at event
  · cases event
  · split at event
    · cases fed : collector.feed byte with
      | mk next answer =>
        rw [fed] at event
        rcases answer with _ | _ | read
        · cases event
        · cases event
        · obtain rfl := Event.command.inj event
          exact Collector.feed_inRange (congrArg Prod.snd fed)
    · repeat' split at event
      all_goals cases event

end AnsiCanvas
