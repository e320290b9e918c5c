import DeskCalculator.History.Store
import DeskCalculator.Proofs.Milliseconds

/-!
# What a store does with an entry

Recording an entry may go in the ways of `Store.Records`, one after each check that the store
makes. Trouble of the store itself is one kind of failure. Trouble that cannot be told, an
integer of too many bits and a timestamp that is no date are another, of which
`record_balks_iff` says when it comes.
-/

namespace DeskCalculator.History
open Clock

theorem isStorable_iff {n : Int} : isStorable n = true ↔ -2 ^ 63 ≤ n ∧ n < 2 ^ 63 := by
  rw [isStorable, Bool.and_eq_true, decide_eq_true_iff, decide_eq_true_iff]

namespace Store

variable {s : Store} {now : Instant}

/-- An entry fails at this time in a way that is no trouble of the store: its trouble cannot
be told, a number has more than 64 bits, or there is no date for the timestamp. -/
def Balks (s : Store) (now : Instant) : Prop :=
  (∃ flaw, s.place.trouble? = some (.untold flaw)) ∨
    s.place.trouble? = none ∧ (isStorable now.epochMillis = false ∨
      s.readOnly = false ∧
        (isStorable s.capacity = false ∨ ¬ (Instant.ofMillis now.epochMillis).Dated))

/-- A new store of so many entries. -/
def blank (capacity : Int) : Store :=
  ⟨⟨Text.utf8 "h.db", []⟩, .named (Text.utf8 "/tmp/calculators/h.db"), false, capacity, .empty⟩

theorem isStorable_epochMillis (dated : now.Dated) : isStorable now.epochMillis = true := by
  have := Instant.epochMillis_of_dated dated
  exact isStorable_iff.mpr (by omega)

/-- A timestamp that has a date is an integer of 64 bits. -/
theorem isStorable_of_dated {stamp : Int} (dated : (Instant.ofMillis stamp).Dated) :
    isStorable stamp = true := by
  have range := (Instant.dated_iff _).mp dated
  unfold Instant.ofMillis at range
  dsimp only at range
  exact isStorable_iff.mpr (by omega)

/-- What troubles there are can be told. -/
def Tells (s : Store) : Prop := ∀ flaw, s.place.trouble? ≠ some (.untold flaw)

/-- What becomes of an entry with this timestamp, and of the store: it is refused, or it is stored,
and fails after all if there is no date for its timestamp. -/
inductive Records (s : Store) (now : Instant) (expression result : String) (stamp : Int) :
    Except Fault Nat × Store → Prop
  | troubled {trouble : Trouble} (h : s.place.trouble? = some trouble) :
      Records s now expression result stamp (.error (.ofTrouble .recording trouble), s)
  | unstorable (usable : s.place.trouble? = none) (high : isStorable stamp = false) :
      Records s now expression result stamp (.error .integerTooWide, s)
  | unwritable (usable : s.place.trouble? = none) (storable : isStorable stamp = true)
      (readOnly : s.readOnly = true) :
      Records s now expression result stamp (.error (.store .recording .readOnly), s)
  | wide (usable : s.place.trouble? = none) (storable : isStorable stamp = true)
      (writable : s.readOnly = false) (wide : isStorable s.capacity = false) :
      Records s now expression result stamp (.error .integerTooWide, s)
  | dated (usable : s.place.trouble? = none) (storable : isStorable stamp = true)
      (writable : s.readOnly = false) (narrow : isStorable s.capacity = true)
      (dated : (Instant.ofMillis stamp).Dated) :
      Records s now expression result stamp (.ok (s.log.lastId + 1),
        { s with log := s.log.record s.capacity expression result stamp now })
  | undated (usable : s.place.trouble? = none) (storable : isStorable stamp = true)
      (writable : s.readOnly = false) (narrow : isStorable s.capacity = true)
      (undated : ¬ (Instant.ofMillis stamp).Dated) (f : Clock.Fault) :
      Records s now expression result stamp (.error (.clock f),
        { s with log := s.log.record s.capacity expression result stamp now })

/-- The stamp is a variable, so that nothing evaluates the doubles behind it. -/
theorem records (s : Store) (now : Instant) (expression result : String)
    (timestamp : Option Int) {stamp : Int} (logged : timestamp.getD now.epochMillis = stamp) :
    s.Records now expression result stamp (s.record now expression result timestamp) := by
  unfold record
  simp only [logged]
  split
  · exact .troubled ‹_›
  · rename_i usable
    split
    · rename_i high
      exact .unstorable usable (by simpa using high)
    · rename_i storable
      rw [Bool.not_eq_true, Bool.not_eq_false'] at storable
      split
      · exact .unwritable usable storable ‹_›
      · rename_i writable
        rw [Bool.not_eq_true] at writable
        split
        · rename_i wide
          exact .wide usable storable writable (by simpa using wide)
        · rename_i narrow
          rw [Bool.not_eq_true, Bool.not_eq_false'] at narrow
          have dates := Instant.ofEpochMillis_isOk_iff stamp
          split
          · rename_i u written
            exact .dated usable storable writable narrow (dates.mp ⟨u, written⟩)
          · rename_i f unwritten
            refine .undated usable storable writable narrow (fun dated => ?_) f
            obtain ⟨u, written⟩ := dates.mpr dated
            cases unwritten.symm.trans written

/-- A timestamp of more than 64 bits is refused. -/
theorem record_of_unstorable (usable : s.place.trouble? = none) {timestamp : Option Int}
    (high : isStorable (timestamp.getD now.epochMillis) = false) (expression result : String) :
    s.record now expression result timestamp = (.error .integerTooWide, s) := by
  have way := s.records now expression result timestamp rfl
  generalize s.record now expression result timestamp = done at way ⊢
  cases way with
  | unstorable => rfl
  | troubled trouble => cases usable.symm.trans trouble
  | _ => simp_all

/-- A usable store takes any entry whose timestamp is an integer of 64 bits, also one
whose timestamp is no date. -/
theorem record_log (usable : s.place.trouble? = none) (writable : s.readOnly = false)
    (capacity : isStorable s.capacity = true) (now : Instant) (expression result : String)
    {timestamp : Option Int} (stamp : isStorable (timestamp.getD now.epochMillis) = true) :
    (s.record now expression result timestamp).2 = { s with
      log := s.log.record s.capacity expression result (timestamp.getD now.epochMillis) now } := by
  have way := s.records now expression result timestamp rfl
  generalize s.record now expression result timestamp = done at way ⊢
  cases way with
  | dated | undated => rfl
  | troubled trouble => cases usable.symm.trans trouble
  | _ => simp_all

/-- An entry whose timestamp has a date is stored, and its number told. -/
theorem record_of_dated (usable : s.place.trouble? = none) (writable : s.readOnly = false)
    (narrow : isStorable s.capacity = true) {timestamp : Option Int} {stamp : Int}
    (logged : timestamp.getD now.epochMillis = stamp) (dated : (Instant.ofMillis stamp).Dated)
    (expression result : String) :
    s.record now expression result timestamp = (.ok (s.log.lastId + 1),
      { s with log := s.log.record s.capacity expression result stamp now }) := by
  have storable := isStorable_of_dated dated
  have way := s.records now expression result timestamp logged
  generalize s.record now expression result timestamp = done at way ⊢
  cases way with
  | dated => rfl
  | troubled trouble => cases usable.symm.trans trouble
  | _ => simp_all

/-- No more than the log is changed. -/
theorem record_frame (s : Store) (now : Instant) (expression result : String)
    (timestamp : Option Int) :
    ∃ log, (s.record now expression result timestamp).2 = { s with log } := by
  have way := s.records now expression result timestamp rfl
  generalize s.record now expression result timestamp = done at way ⊢
  cases way <;> exact ⟨_, rfl⟩

/-- A fault is none of the store itself just if the store balks. -/
theorem record_balks_iff (s : Store) (now : Instant) (expression result : String) :
    (∃ f, (s.record now expression result none).1 = .error f ∧ f.operation = none) ↔
      s.Balks now := by
  have way := s.records now expression result none (Option.getD_none ..)
  generalize s.record now expression result none = done at way ⊢
  cases way with
  | @troubled trouble h => cases trouble <;> simp [Balks, h, Fault.ofTrouble, Fault.operation]
  | unstorable usable high => simp [Balks, usable, high, Fault.operation]
  | unwritable usable storable readOnly =>
    simp [Balks, usable, storable, readOnly, Fault.operation]
  | wide usable storable writable wide => simp [Balks, usable, writable, wide, Fault.operation]
  | dated usable storable writable narrow dated => simp [Balks, usable, storable, narrow, dated]
  | undated usable storable writable narrow undated f =>
    simp [Balks, usable, writable, undated, Fault.operation]

/-- In the years 1 to 9999 a store whose troubles can be told balks only if it can be written
to. -/
theorem balks_iff_of_dated (tells : s.Tells) (dated : now.Dated) :
    s.Balks now ↔ s.place.trouble? = none ∧ s.readOnly = false ∧
      (isStorable s.capacity = false ∨ ¬ now.Timely) := by
  have told : ¬ ∃ flaw, s.place.trouble? = some (.untold flaw) := fun ⟨flaw, h⟩ => tells flaw h
  have storable := isStorable_epochMillis dated
  simp only [Balks, told, storable, Instant.Timely, dated, true_and, false_or, Bool.true_eq_false]

theorem balks_iff_not_timely (usable : s.place.trouble? = none) (writable : s.readOnly = false)
    (narrow : isStorable s.capacity = true) (dated : now.Dated) : s.Balks now ↔ ¬ now.Timely := by
  have tells : s.Tells := fun flaw => by simp [usable]
  simp [balks_iff_of_dated tells dated, usable, writable, narrow]

end Store

end DeskCalculator.History
