import DeskCalculator.Proofs.Newest
import DeskCalculator.Proofs.Recording

/-!
# Entries and their numbers

A number is given once, so a later log has under a number either the entry that got it or
none: `Log.Stems`. `Store.Later` lists what may become of a store between two looks at it,
whoever uses it, and all of that keeps to the numbers (`Later.stems`). A run of a
calculator does no more to its history than that: `later_after`.
-/

namespace DeskCalculator.History
open Clock

namespace Log

variable {log log' log'' : Log}

/-- No entry has a number that is still to be given. -/
def Numbered (log : Log) : Prop := ∀ e ∈ log.entries, e.id ≤ log.lastId

/-- What the later log has under an old number is an old entry. -/
def Stems (log later : Log) : Prop :=
  log.lastId ≤ later.lastId ∧ ∀ e ∈ later.entries, e.id ≤ log.lastId → e ∈ log.entries

theorem stems_self (log : Log) : log.Stems log := ⟨Nat.le_refl _, fun _ there _ => there⟩

theorem Stems.trans (h : log.Stems log') (h' : log'.Stems log'') : log.Stems log'' :=
  ⟨Nat.le_trans h.1 h'.1,
    fun e there old => h.2 e (h'.2 e there (Nat.le_trans old h.1)) old⟩

theorem mem_record {capacity : Int} {expression result : String} {timestamp : Int}
    {created : Instant} {e : Entry}
    (h : e ∈ (log.record capacity expression result timestamp created).entries) :
    e = ⟨log.lastId + 1, expression, result, timestamp, created⟩ ∨ e ∈ log.entries := by
  unfold record atMost at h
  dsimp only at h
  rw [← List.mem_cons, ← (insert_perm _ log.entries).mem_iff]
  split at h
  · exact h
  · exact List.mem_of_mem_take h

theorem stems_record (log : Log) (capacity : Int) (expression result : String) (timestamp : Int)
    (created : Instant) :
    log.Stems (log.record capacity expression result timestamp created) := by
  refine ⟨Nat.le_succ _, fun e there old => ?_⟩
  rcases mem_record there with rfl | before
  · exact absurd old (Nat.not_succ_le_self _)
  · exact before

theorem stems_clear (log : Log) : log.Stems log.clear :=
  ⟨Nat.le_refl _, fun _ none _ => by cases none⟩

/-- From numbers that are given in order no others come. -/
theorem Numbered.record (h : log.Numbered) (capacity : Int) (expression result : String)
    (timestamp : Int) (created : Instant) :
    (log.record capacity expression result timestamp created).Numbered := by
  intro e there
  rcases mem_record there with rfl | before
  · exact Nat.le_refl _
  · exact Nat.le_succ_of_le (h e before)

end Log

namespace Store

variable {s t : Store}

/-- A store does nothing with an entry, or it can be written to and logs it, and tells no other
number than that of the entry. -/
theorem record_cases (s : Store) (now : Instant) (expression result : String)
    (timestamp : Option Int) :
    (∃ f, s.record now expression result timestamp = (.error f, s)) ∨
      s.place.trouble? = none ∧ s.readOnly = false ∧ isStorable s.capacity = true ∧
        (s.record now expression result timestamp).2 = { s with
          log := s.log.record s.capacity expression result (timestamp.getD now.epochMillis) now } ∧
        ∀ id, (s.record now expression result timestamp).1 = .ok id → id = s.log.lastId + 1 := by
  have way := s.records now expression result timestamp rfl
  generalize s.record now expression result timestamp = done at way ⊢
  cases way with
  | dated usable _ writable narrow =>
    exact .inr ⟨usable, writable, narrow, rfl, fun id told => (Except.ok.inj told).symm⟩
  | undated usable _ writable narrow => exact .inr ⟨usable, writable, narrow, rfl, nofun⟩
  | _ => exact .inl ⟨_, rfl⟩

/-- What may become of a store: it is given entries, it is cleared, or it is opened with
another capacity. -/
inductive Later (s : Store) : Store → Prop
  | same : s.Later s
  | record {t : Store} (before : s.Later t) (now : Instant) (expression result : String)
      (timestamp : Option Int) : s.Later (t.record now expression result timestamp).2
  | clear {t : Store} (before : s.Later t) : s.Later t.clear.2
  | capacity {t : Store} (before : s.Later t) (capacity : Int) : s.Later { t with capacity }

theorem clear_cases (s : Store) : s.clear.2 = s ∨ s.clear.2 = { s with log := s.log.clear } := by
  unfold clear
  split
  · exact .inl rfl
  · split
    · exact .inl rfl
    · exact .inr rfl

/-- What a log keeps when it is written or cleared, a store keeps. -/
theorem Later.log_kept {Kept : Log → Prop} (h : s.Later t) (first : Kept s.log)
    (record : ∀ log capacity expression result timestamp created, Kept log →
      Kept (Log.record log capacity expression result timestamp created))
    (clear : ∀ log, Kept log → Kept log.clear) : Kept t.log := by
  induction h with
  | same => exact first
  | @record t before now expression result timestamp ih =>
    rcases t.record_cases now expression result timestamp with ⟨f, same⟩ | ⟨-, -, -, logged, -⟩
    · rw [same]
      exact ih
    · rw [logged]
      exact record t.log _ _ _ _ _ ih
  | @clear t before ih =>
    rcases t.clear_cases with same | cleared
    · rw [same]
      exact ih
    · rw [cleared]
      exact clear t.log ih
  | capacity before capacity ih => exact ih

/-- **Numbers that have been given keep their entries** or lose them. -/
theorem Later.stems (h : s.Later t) : s.log.Stems t.log :=
  h.log_kept (Log.stems_self _)
    (fun _ _ _ _ _ _ before => before.trans (Log.stems_record _ _ _ _ _ _))
    (fun _ before => before.trans (Log.stems_clear _))

theorem Later.numbered (h : s.Later t) (first : s.log.Numbered) : t.log.Numbered :=
  h.log_kept first (fun _ _ _ _ _ _ before => before.record _ _ _ _ _)
    (fun _ _ _ none => by cases none)

/-- A store stays where it is. -/
theorem Later.writable (h : s.Later t) (usable : s.place.trouble? = none)
    (writable : s.readOnly = false) : t.place.trouble? = none ∧ t.readOnly = false := by
  induction h with
  | same => exact ⟨usable, writable⟩
  | @record t before now expression result timestamp ih =>
    obtain ⟨log, same⟩ := t.record_frame now expression result timestamp
    rw [same]
    exact ih
  | @clear t before ih =>
    rcases t.clear_cases with same | cleared
    · rw [same]
      exact ih
    · rw [cleared]
      exact ih
  | capacity before capacity ih => exact ih

end Store

end DeskCalculator.History

namespace DeskCalculator.Calculator
open Clock Display DeskCalculator.Expr History

namespace Desk

variable {d : Desk} {s t : Store}

/-- What equals leaves in the store, whether it answers or is refused. -/
theorem history_equals (history : d.history = some t) {c : Calculation}
    (calculated : d.state.calculation = .ok (some c)) :
    d.equals.2.history =
      some (t.record d.now c.expression (d.panel.render c.outcome) none).2 := by
  have recorded := record_of_history history c.expression (d.panel.render c.outcome)
  cases split : d.record c.expression (d.panel.render c.outcome) with
  | mk answer e =>
    rw [split] at recorded
    have written : e = d.apart _ d.now := congrArg Prod.snd recorded
    cases answer with
    | error f =>
      rw [equals_of_refused calculated split, written]
      rfl
    | ok _ =>
      rw [equals_of_recorded calculated split, written]
      rfl

theorem later_equals (h : s.Later t) (history : d.history = some t) :
    ∃ u, d.equals.2.history = some u ∧ s.Later u := by
  cases calculated : d.state.calculation with
  | error f =>
    rw [equals_of_error calculated]
    exact ⟨t, history, h⟩
  | ok whole =>
    cases whole with
    | none =>
      rw [equals_of_none calculated]
      exact ⟨t, history, h⟩
    | some c =>
      exact ⟨_, history_equals history calculated,
        h.record d.now c.expression (d.panel.render c.outcome) none⟩

theorem later_perform (h : s.Later t) (history : d.history = some t) (x : Operation) :
    ∃ u, (d.perform x).2.history = some u ∧ s.Later u := by
  cases writes : x.finishes with
  | true =>
    obtain ⟨told, same⟩ := perform_of_finishes writes
    rw [same]
    exact later_equals h history
  | false => exact ⟨t, (kept_perform writes d).1.trans history, h⟩

/-- **A run only adds to the history.** -/
theorem later_after (h : s.Later t) (history : d.history = some t) (inputs : List Operation) :
    ∃ u, (d.after inputs).history = some u ∧ s.Later u := by
  induction inputs generalizing d t with
  | nil => exact ⟨t, history, h⟩
  | cons x rest ih =>
    obtain ⟨u, next, later⟩ := later_perform h history x
    exact ih later next

end Desk
end DeskCalculator.Calculator
