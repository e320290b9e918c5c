import DeskCalculator.Proofs.Effect
import DeskCalculator.Proofs.Numbered
import Mathlib.Data.List.Induction

/-!
# The history of finished calculations

With a clock that never runs backwards each entry goes in front of the others, so the
history lists the calculations that were ready when equals was pressed, the last one first, as
far as its capacity goes. Those are the calculations that were finished, unless one was ready
at a time that cannot be logged: `lists_iff_timely`. What is finished is told here by what is
shown before and after, not by what is recorded.
-/

namespace DeskCalculator.History
open Clock

/-- What an entry tells of its calculation, and the time that it is logged under. -/
structure Account where
  expression : String
  result : String
  timestamp : Int
  deriving DecidableEq

def Entry.account (e : Entry) : Account := ⟨e.expression, e.result, e.timestamp⟩

namespace Log

/-- The log lists the last of what has been seen, and nothing in it is newer than a timestamp. -/
structure Follows (log : Log) (limit : Nat) (stamp : Int) (seen : List Account) : Prop where
  accounts : log.entries.map Entry.account = seen.reverse.take limit
  old : ∀ e ∈ log.entries, e.timestamp ≤ stamp ∧ e.id ≤ log.lastId

theorem insert_eq_cons {e : Entry} {es : List Entry} (h : ∀ x ∈ es, x.newer e = false) :
    insert e es = e :: es := by
  cases es with
  | nil => rfl
  | cons x rest =>
    unfold insert
    rw [h x (List.mem_cons_self ..)]
    rfl

variable {log : Log} {limit : Nat} {stamp stamp' : Int} {seen : List Account}

theorem Follows.later (h : log.Follows limit stamp seen) (order : stamp ≤ stamp') :
    log.Follows limit stamp' seen :=
  ⟨h.accounts, fun e he => ⟨Int.le_trans (h.old e he).1 order, (h.old e he).2⟩⟩

theorem Follows.record (h : log.Follows limit stamp seen) (expression result : String)
    (created : Instant) :
    (log.record limit expression result stamp created).Follows limit stamp
      (seen ++ [⟨expression, result, stamp⟩]) := by
  generalize new : (⟨log.lastId + 1, expression, result, stamp, created⟩ : Entry) = e
  have first : insert e log.entries = e :: log.entries := by
    apply insert_eq_cons
    intro x hx
    have old := h.old x hx
    rw [← new]
    simp only [Entry.newer, Bool.or_eq_false_iff, Bool.and_eq_false_iff, decide_eq_false_iff_not,
      beq_eq_false_iff_ne]
    omega
  have entries : (log.record limit expression result stamp created).entries =
      (e :: log.entries).take limit := by
    simp [Log.record, atMost, new, first]
  constructor
  · rw [entries, List.map_take, List.map_cons, h.accounts, ← new]
    cases limit with
    | zero => simp
    | succ n => simp [List.take_take, Entry.account]
  · intro x hx
    rw [entries] at hx
    rcases List.mem_cons.mp (List.mem_of_mem_take hx) with rfl | there
    · rw [← new]
      exact ⟨Int.le_refl _, Nat.le_refl _⟩
    · have old := h.old x there
      exact ⟨old.1, Nat.le_succ_of_le old.2⟩

end Log

end DeskCalculator.History

namespace DeskCalculator.Calculator
open Clock Display DeskCalculator.Expr History

/-- The line of the calculation that equals would finish: the expression, or in basic mode
the first operand, the operator and the second operand. -/
def State.line? (s : State) : Option String :=
  match s.mode with
  | .advanced => s.expressionLine.toOption
  | .basic => do
    let o ← s.pending
    let first ← s.first
    let second ← s.currentValue?
    return Numeral.plain first ++ " " ++ Vocabulary.spelling o.symbol ++ " " ++
      Numeral.plain second

theorem State.line?_of_calculation {s : State} {c : Calculation}
    (h : s.calculation = .ok (some c)) : s.line? = some c.expression := by
  unfold State.calculation at h
  unfold State.line?
  cases mode : s.mode with
  | advanced =>
    rw [mode] at h
    unfold State.expressionLine
    cases tokens : s.currentTokens with
    | error f =>
      rw [tokens] at h
      cases h
    | ok ts =>
      rw [tokens] at h
      have whole : (if ts = [] then none else some ⟨Token.line ts, s.valueOf ts⟩) = some c :=
        Except.ok.inj h
      split at whole
      · cases whole
      · cases whole
        rfl
  | basic =>
    rw [mode] at h
    have whole : s.basicCalculation = some c := Except.ok.inj h
    unfold State.basicCalculation at whole
    cases pending : s.pending <;> cases first : s.first <;> cases second : s.currentValue? <;>
      simp_all
    cases whole
    rfl

namespace Desk

/-- What an input finds ready to be finished: the line that is shown, and the outcome as it
will be shown. -/
def ready? (d : Desk) (x : Operation) : Option Account :=
  match x.finishes, d.state.calculation with
  | true, .ok (some c) => some ⟨c.expression, d.panel.render c.outcome, d.now.epochMillis⟩
  | _, _ => none

/-- What an input finishes: the line that was shown before, and the display after. Nothing
is finished unless equals gives a result. -/
def finished? (d : Desk) (x : Operation) : Option Account :=
  match x.finishes, d.equals with
  | true, (.ok (.outcome (some _)), after) =>
    d.state.line?.map fun line => ⟨line, after.state.display, d.now.epochMillis⟩
  | _, _ => none

/-- What the inputs of a run tell one after another. -/
def told (tells : Desk → Operation → Option Account) (d : Desk) : List Operation → List Account
  | [] => []
  | x :: later => (tells d x).toList ++ (d.perform x).2.told tells later

theorem told_concat (tells : Desk → Operation → Option Account) (d : Desk)
    (before : List Operation) (x : Operation) :
    d.told tells (before ++ [x]) = d.told tells before ++ (tells (d.after before) x).toList := by
  induction before generalizing d with
  | nil => simp [told, Desk.after]
  | cons y before ih =>
    rw [List.cons_append, told, ih, told, List.append_assoc]
    rfl

/-- The history lists the last of these accounts, the last one first. -/
def Lists (d : Desk) (capacity : Nat) (accounts : List Account) : Prop :=
  ∃ es, (d.perform (.history none)).1 = .ok (.entries es) ∧
    es.map Entry.account = accounts.reverse.take capacity

/-- The history has logged the last of these accounts, and nothing later than now. -/
def Logs (d : Desk) (store : Store) (seen : List Account) : Prop :=
  ∃ log, d.history = some { store with log } ∧
    log.Follows store.capacity.toNat d.now.epochMillis seen

/-- The history lists what the log follows. -/
theorem Logs.lists_iff {d : Desk} {store : Store} {seen : List Account} (h : d.Logs store seen)
    (usable : store.place.trouble? = none) (low : 0 ≤ store.capacity)
    (high : store.capacity < 2 ^ 63) {accounts : List Account} :
    d.Lists store.capacity.toNat accounts ↔
      seen.reverse.take store.capacity.toNat = accounts.reverse.take store.capacity.toNat := by
  obtain ⟨log, history, follows⟩ := h
  have narrow : isStorable store.capacity = true := isStorable_iff.mpr (by omega)
  have recent : Store.recent { store with log } none = .ok (log.recent store.capacity) := by
    simp [Store.recent, usable, narrow]
  have answer : (d.perform (.history none)).1 = .ok (.entries (log.recent store.capacity)) := by
    simp only [Desk.perform, Desk.recent, history, recent]
  have texts : (log.recent store.capacity).map Entry.account =
      seen.reverse.take store.capacity.toNat := by
    rw [Log.recent, atMost, if_neg (by omega), List.map_take, follows.accounts, List.take_take,
      Nat.min_self]
  unfold Lists
  rw [answer, ← texts]
  constructor
  · rintro ⟨es, same, listed⟩
    cases same
    exact listed
  · exact fun listed => ⟨_, rfl, listed⟩

section Writable

variable {d : Desk} {store : Store} {seen : List Account}
  (usable : store.place.trouble? = none) (writable : store.readOnly = false)
  (low : 0 ≤ store.capacity) (high : store.capacity < 2 ^ 63)
include usable writable low high

/-- A calculation that is ready is finished, if the time can be logged. -/
theorem Logs.finished?_eq (h : d.Logs store seen) (dated : d.now.Dated) (x : Operation) :
    d.finished? x = if d.now.Timely then d.ready? x else none := by
  obtain ⟨log, history, -⟩ := h
  have narrow : isStorable store.capacity = true := isStorable_iff.mpr (by omega)
  have balks : Store.Balks { store with log } d.now ↔ ¬ d.now.Timely :=
    Store.balks_iff_not_timely usable writable narrow dated
  unfold finished? ready?
  cases x.finishes with
  | false => simp
  | true =>
    cases calculated : d.state.calculation with
    | error f => simp [equals_of_error calculated]
    | ok whole =>
      cases whole with
      | none => simp [equals_of_none calculated]
      | some c =>
        by_cases timely : d.now.Timely
        · obtain ⟨log', recorded⟩ := record_of_calm history (fun b => balks.mp b timely)
            c.expression (d.panel.render c.outcome)
          rw [equals_of_recorded calculated recorded, if_pos timely,
            State.line?_of_calculation calculated]
          rfl
        · obtain ⟨f, log', refused⟩ := record_of_balks history (balks.mpr timely)
            c.expression (d.panel.render c.outcome)
          rw [equals_of_refused calculated refused, if_neg timely]

theorem Logs.equals (h : d.Logs store seen) (dated : d.now.Dated) :
    d.equals.2.Logs store (seen ++ (d.ready? .equals).toList) := by
  obtain ⟨log, history, follows⟩ := h
  unfold ready?
  cases calculated : d.state.calculation with
  | error f =>
    rw [equals_of_error calculated]
    exact ⟨log, history, by simpa [Operation.finishes] using follows⟩
  | ok whole =>
    cases whole with
    | none =>
      rw [equals_of_none calculated]
      exact ⟨log, history, by simpa [Operation.finishes] using follows⟩
    | some c =>
      have narrow : isStorable store.capacity = true := isStorable_iff.mpr (by omega)
      have stamp : isStorable (Option.getD none d.now.epochMillis) = true := by
        rw [Option.getD_none]
        exact Store.isStorable_epochMillis dated
      have taken := Store.record_log (s := { store with log }) usable writable narrow d.now
        c.expression (d.panel.render c.outcome) stamp
      have next := follows.record c.expression (d.panel.render c.outcome) d.now
      rw [Int.toNat_of_nonneg low] at next
      have left := history_equals history calculated
      rw [taken, Option.getD_none] at left
      refine ⟨_, left, ?_⟩
      rw [now_equals]
      exact next

theorem Logs.perform (h : d.Logs store seen) (dated : d.now.Dated) (x : Operation)
    (later : ∀ t, x.time? = some t → t.Dated ∧ d.now.micros ≤ t.micros) :
    (d.perform x).2.Logs store (seen ++ (d.ready? x).toList) := by
  cases writes : x.finishes with
  | true =>
    obtain ⟨told, same⟩ := perform_of_finishes writes
    have next := h.equals usable writable low high dated
    rw [same]
    unfold ready? at *
    rw [writes]
    exact next
  | false =>
    obtain ⟨log, history, follows⟩ := h
    obtain ⟨kept, now⟩ := kept_perform writes d
    have none : d.ready? x = none := by
      unfold ready?
      rw [writes]
    rw [none, Option.toList_none, List.append_nil]
    refine ⟨log, kept.trans history, ?_⟩
    rw [now]
    cases time : x.time? with
    | none => exact follows
    | some t =>
      obtain ⟨dated', order⟩ := later t time
      exact follows.later (Instant.epochMillis_mono dated dated' order)

/-- **A run logs what it finds ready,** whether it is finished then or not. -/
theorem Logs.after (h : d.Logs store seen) {inputs : List Operation}
    (dated : ∀ t ∈ times d.now inputs, t.Dated)
    (forward : (times d.now inputs).Pairwise fun t u => t.micros ≤ u.micros) :
    (d.after inputs).Logs store (seen ++ d.told ready? inputs) := by
  induction inputs generalizing d seen with
  | nil => simpa [told, Desk.after] using h
  | cons x inputs ih =>
    have rest := d.times_perform x inputs
    have next := h.perform usable writable low high (dated d.now (List.mem_cons_self ..)) x (by
      intro t time
      have shown : t ∈ (x :: inputs).filterMap Operation.time? :=
        List.mem_filterMap.mpr ⟨x, List.mem_cons_self .., time⟩
      exact ⟨dated t (List.mem_cons_of_mem _ shown), (List.pairwise_cons.mp forward).1 t shown⟩)
    have whole := ih next (fun t ht => dated t (rest.subset ht)) (forward.sublist rest)
    rwa [List.append_assoc] at whole

end Writable

theorem timestamp_of_ready {d : Desk} {x : Operation} {a : Account} (h : d.ready? x = some a) :
    a.timestamp = d.now.epochMillis := by
  unfold ready? at h
  split at h
  · rw [← Option.some.inj h]
  · cases h

theorem times_sublist {before inputs : List Operation} (run : before <+: inputs) (now : Instant) :
    (times now before).Sublist (times now inputs) :=
  (run.sublist.filterMap _).cons_cons _

section Steps

variable {d : Desk} {inputs : List Operation}
  (finished : ∀ before, before <+: inputs → ∀ x, (d.after before).finished? x =
    if (d.after before).now.Timely then (d.after before).ready? x else none)
include finished

theorem told_finished_eq (timely : ∀ before x, before ++ [x] <+: inputs →
      ((d.after before).ready? x).isSome → (d.after before).now.Timely)
    {before : List Operation} (run : before <+: inputs) :
    d.told finished? before = d.told ready? before := by
  induction before using List.reverseRecOn with
  | nil => rfl
  | append_singleton before x ih =>
    have here := (List.prefix_append before [x]).trans run
    rw [told_concat, told_concat, ih here, finished before here x]
    split
    · rfl
    · rename_i late
      cases ready : (d.after before).ready? x with
      | none => rfl
      | some a => exact absurd (timely before x run (by rw [ready]; rfl)) late

theorem dated_of_finished {before : List Operation} (run : before <+: inputs) {a : Account}
    (h : a ∈ d.told finished? before) : (Instant.ofMillis a.timestamp).Dated := by
  induction before using List.reverseRecOn with
  | nil => cases h
  | append_singleton before x ih =>
    have here := (List.prefix_append before [x]).trans run
    rw [told_concat, finished before here x] at h
    rcases List.mem_append.mp h with earlier | last
    · exact ih here earlier
    · split at last
      · rename_i timely
        rw [timestamp_of_ready (Option.mem_toList.mp last)]
        exact timely.2
      · cases last

/-- What is ready at a time that cannot be logged is not among what has been finished. -/
theorem told_finished_ne {before : List Operation} {x : Operation} (run : before ++ [x] <+: inputs)
    (ready : ((d.after before).ready? x).isSome)
    (late : ¬ (Instant.ofMillis (d.after before).now.epochMillis).Dated) {limit : Nat} (some : 1 ≤ limit) :
    (d.told ready? (before ++ [x])).reverse.take limit ≠
      (d.told finished? (before ++ [x])).reverse.take limit := by
  intro same
  obtain ⟨a, ready⟩ := Option.isSome_iff_exists.mp ready
  have first : a ∈ (d.told ready? (before ++ [x])).reverse.take limit := by
    obtain ⟨n, rfl⟩ := Nat.exists_eq_add_of_le' some
    simp [told_concat, ready]
  rw [same] at first
  have finished := dated_of_finished finished run
    (List.mem_reverse.mp (List.mem_of_mem_take first))
  rw [timestamp_of_ready ready] at finished
  exact late finished

end Steps

end Desk

/-- **The history lists what was ready to be finished,** the last first and as far as its
capacity goes, if the clock never runs backwards. All along that is what has been finished,
just if nothing is ready to be finished at a time that cannot be logged: then equals fails,
and the calculation is listed all the same. -/
theorem lists_iff_timely (p : Panel) (angle : AngleMode) (mode : Mode) {store : Store}
    {now : Instant} (usable : store.place.trouble? = none) (writable : store.readOnly = false)
    (low : 1 ≤ store.capacity) (high : store.capacity < 2 ^ 63) (empty : store.log.entries = [])
    {inputs : List Operation} (dated : ∀ t ∈ Desk.times now inputs, t.Dated)
    (forward : (Desk.times now inputs).Pairwise fun t u => t.micros ≤ u.micros) :
    let d := Desk.start p angle mode (some store) now
    (∀ before, before <+: inputs →
      (d.after before).Lists store.capacity.toNat (d.told Desk.ready? before)) ∧
    ((∀ before, before <+: inputs →
        (d.after before).Lists store.capacity.toNat (d.told Desk.finished? before)) ↔
      ∀ before x, before ++ [x] <+: inputs → ((d.after before).ready? x).isSome →
        (d.after before).now.Timely) := by
  intro d
  have low' : 0 ≤ store.capacity := Int.le_trans (by decide) low
  have first : d.Logs store [] := ⟨store.log, rfl, by simp [empty], by simp [empty]⟩
  have logs {before : List Operation} (run : before <+: inputs) :
      (d.after before).Logs store (d.told Desk.ready? before) := by
    have within := Desk.times_sublist run now
    exact first.after usable writable low' high (fun t ht => dated t (within.subset ht))
      (forward.sublist within)
  have shown {before : List Operation} (run : before <+: inputs) : (d.after before).now.Dated :=
    dated _ (Desk.now_mem_times run)
  have finished (before : List Operation) (run : before <+: inputs) :=
    (logs run).finished?_eq usable writable low' high (shown run)
  have lists {before : List Operation} (run : before <+: inputs) (accounts : List Account) :
      (d.after before).Lists store.capacity.toNat accounts ↔ _ :=
    (logs run).lists_iff usable low' high
  refine ⟨fun before run => (lists run _).mpr rfl, ?_, ?_⟩
  · intro all before x run ready
    refine ⟨shown ((List.prefix_append before [x]).trans run), ?_⟩
    by_contra late
    exact Desk.told_finished_ne finished run ready late (by omega) ((lists run _).mp (all _ run))
  · intro timely before run
    rw [lists run, Desk.told_finished_eq finished timely run]

/-- Three calculations within a millisecond, of which one is in basic mode and fails, and
equals with nothing to finish. -/
def session : List Operation :=
  [.digit "1", .equals, .mode .basic, .digit "6", .operator .divide, .digit "0", .equals, .equals,
    .clock ⟨999⟩, .mode .advanced, .key "5", .key "+", .key "2", .key "="]

theorem lists_session :
    let d := Desk.start .standard .radians .advanced (some (.blank 2)) ⟨0⟩
    (d.after session).Lists 2 [⟨"1", "1", 0⟩, ⟨"6 / 0", "Error", 0⟩, ⟨"5 + 2", "7", 0⟩] ∧
    ∀ before, before <+: session → (d.after before).Lists 2 (d.told Desk.finished? before) := by
  intro d
  have timely : ∀ t ∈ Desk.times ⟨0⟩ session, t.Timely := by
    intro t ht
    have shown : t = ⟨0⟩ ∨ ⟨999⟩ = t := by
      simpa [Desk.times, session, Operation.time?] using ht
    rw [Instant.timely_iff]
    rcases shown with rfl | rfl <;> decide
  have forward : (Desk.times ⟨0⟩ session).Pairwise fun t u => t.micros ≤ u.micros := by decide
  have told : d.told Desk.ready? session =
      [⟨"1", "1", 0⟩, ⟨"6 / 0", "Error", 0⟩, ⟨"5 + 2", "7", 0⟩] := by decide +kernel
  have usable : (Store.blank 2).place.trouble? = none := rfl
  obtain ⟨listed, finished⟩ := lists_iff_timely .standard .radians .advanced usable rfl (by decide)
    (by decide) rfl (fun t ht => (timely t ht).1) forward
  refine ⟨told ▸ listed session (List.prefix_refl _), finished.mpr fun before x run _ => ?_⟩
  exact timely _ (Desk.now_mem_times ((List.prefix_append before [x]).trans run))

/-- In the last microseconds of the year 9999 equals fails, and has listed its calculation. -/
theorem not_lists_late :
    let d := (Desk.start .standard .radians .advanced (some (.blank 50))
      ⟨253402300799999985⟩).after [.digit "1"]
    d.now.Dated ∧ (d.perform .equals).1 = .error (.history (.clock (.yearOutOfRange 10000))) ∧
    d.told Desk.finished? [.equals] = [] ∧
    (d.after [.equals]).Lists 50 [⟨"1", "1", 253402300800000⟩] := by
  intro d
  refine ⟨by decide +kernel, by decide +kernel, by decide +kernel, ?_⟩
  have listed : ((d.after [.equals]).perform (.history none)).1 =
      .ok (.entries [⟨1, "1", "1", 253402300800000, ⟨253402300799999985⟩⟩]) := by decide +kernel
  exact ⟨_, listed, rfl⟩

end DeskCalculator.Calculator
