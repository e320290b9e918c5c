import Mathlib.Data.List.Induction
import DeskCalculator.Proofs.Effect
import DeskCalculator.Proofs.Loading
import DeskCalculator.Proofs.Recording

/-!
# The history is a bystander

Two calculators get the same inputs, one with a history and one without. They answer the
same and show the same, up to the first calculation that is finished while the store balks:
`agrees_iff_unbalked`. A store that cannot be written to at all never does.
-/

namespace DeskCalculator.History
open Clock

namespace Store

variable {files left : Directory} {address : Address} {capacity : Int} {s : Store}

/-- An address that could be opened once can always be told. -/
theorem target_told {folders : Folders} {names : List Text.Bytes} {access : Access}
    {system : System} (reached : address.access = .ok access)
    (known : address.system = .ok system) {trouble : Trouble}
    (h : target folders names address = .error trouble) : ∀ flaw, trouble ≠ .untold flaw := by
  intro flaw
  rintro rfl
  simp only [target, reached, known, bind, Except.bind] at h
  split at h
  · cases h
  · split at h
    · cases h
    · split at h
      · cases h
      · split at h
        · cases h
        · split at h <;> cases h

theorem findVolatile_place {access : Access} {found : Finding}
    (h : Place.findVolatile address access = .ok found) : found.place = .volatile := by
  unfold Place.findVolatile at h
  dsimp only at h
  split at h
  · cases h
  · cases h
    rfl

theorem findFile_place {names : Names} {access : Access} {system : System} {name : Text.Bytes}
    {found : Finding} (h : Place.findFile names address access system name = .ok found) :
    found.place = .named name := by
  unfold Place.findFile at h
  split at h
  · split at h
    · cases h
    · cases h
      rfl
  · split at h
    · cases h
    · split at h
      · cases h
      · cases h
        rfl

/-- What is found is never blocked, and its address can be read. -/
theorem find_ok {names : Names} {found : Finding} (h : Place.find names address = .ok found) :
    (∃ access, address.access = .ok access) ∧ (∃ system, address.system = .ok system) ∧
      ∀ name trouble, found.place ≠ .blocked name trouble := by
  unfold Place.find at h
  cases reached : address.access with
  | error trouble =>
    rw [reached] at h
    cases h
  | ok access =>
    cases known : address.system with
    | error trouble =>
      rw [reached, known] at h
      cases h
    | ok system =>
      refine ⟨⟨access, rfl⟩, ⟨system, rfl⟩, ?_⟩
      rw [reached, known] at h
      simp only [bind, Except.bind] at h
      split at h
      · cases h
      · split at h
        · simp [findVolatile_place h]
        · cases h
        · simp [findFile_place h]

theorem tells_of_openIn (opened : openIn files address capacity = .ok (s, left)) :
    s.Tells ∧ s.capacity = capacity := by
  unfold openIn at opened
  cases h : Place.find files.names address with
  | error trouble =>
    rw [h] at opened
    cases opened
  | ok found =>
    obtain ⟨⟨access, reached⟩, ⟨system, known⟩, free⟩ := find_ok h
    rw [h] at opened
    cases opened
    refine ⟨?_, rfl⟩
    intro flaw
    unfold within Place.amid
    cases place : found.place with
    | volatile => simp [Place.trouble?]
    | blocked name trouble => exact absurd place (free name trouble)
    | named name =>
      dsimp only
      split
      · simp [Place.trouble?]
      · rename_i trouble blocked
        intro same
        exact target_told reached known blocked flaw (Option.some.inj same)

end Store

end DeskCalculator.History

namespace DeskCalculator.Calculator
open Clock Display DeskCalculator.Expr History

namespace Desk

variable {d e : Desk} {s : Store} {x : Operation}

/-- The first calculator is the second one with a history in a store. -/
def Beside (d e : Desk) (s : Store) : Prop :=
  e.history = none ∧ ∃ log, d = e.apart (some { s with log }) e.now

/-- A calculation is finished while the store balks. -/
def Clashes (e : Desk) (s : Store) (x : Operation) : Prop :=
  x.finishes = true ∧ (∃ c, e.state.calculation = .ok (some c)) ∧ s.Balks e.now

/-- The answers are the same, and so is what is shown after them. -/
def Agrees (d e : Desk) (x : Operation) : Prop :=
  (d.perform x).1 = (e.perform x).1 ∧ (d.perform x).2.state = (e.perform x).2.state

theorem Beside.equals_of_calm (h : d.Beside e s)
    (calm : (∃ c, e.state.calculation = .ok (some c)) → ¬ s.Balks e.now) :
    d.equals.1 = e.equals.1 ∧ d.equals.2.Beside e.equals.2 s := by
  obtain ⟨bare, log, rfl⟩ := h
  generalize kept : e.apart (some { s with log }) e.now = d
  have state : d.state = e.state := by
    rw [← kept]
    rfl
  cases calculated : e.state.calculation with
  | error f =>
    rw [equals_of_error (state ▸ calculated), equals_of_error calculated]
    exact ⟨rfl, bare, log, kept.symm⟩
  | ok whole =>
    cases whole with
    | none =>
      rw [equals_of_none (state ▸ calculated), equals_of_none calculated]
      exact ⟨rfl, bare, log, kept.symm⟩
    | some c =>
      subst kept
      obtain ⟨log', recorded⟩ := record_of_calm (d := e.apart (some { s with log }) e.now) rfl
        (calm ⟨c, calculated⟩) c.expression (e.panel.render c.outcome)
      rw [equals_of_recorded (d := e.apart (some { s with log }) e.now) calculated recorded,
        equals_of_recorded calculated (record_of_bare bare _ _)]
      exact ⟨rfl, bare, log', rfl⟩

/-- Equals fails where it would not fail without the history, and finishes nothing. -/
theorem Beside.equals_of_balks (h : d.Beside e s) {c : Calculation}
    (calculated : e.state.calculation = .ok (some c)) (balks : s.Balks e.now) :
    (∃ f, d.equals.1 = .error f) ∧ (∃ r, e.equals.1 = .ok r) := by
  obtain ⟨bare, log, rfl⟩ := h
  obtain ⟨f, log', refused⟩ := record_of_balks (d := e.apart (some { s with log }) e.now) rfl
    balks c.expression (e.panel.render c.outcome)
  rw [equals_of_refused (d := e.apart (some { s with log }) e.now) calculated refused,
    equals_of_recorded calculated (record_of_bare bare _ _)]
  exact ⟨⟨f, rfl⟩, ⟨_, rfl⟩⟩

theorem Beside.perform (h : d.Beside e s)
    (blind : x.asks = false) (calm : ¬ e.Clashes s x) :
    d.Agrees e x ∧ (d.perform x).2.Beside (e.perform x).2 s := by
  cases writes : x.finishes with
  | true =>
    obtain ⟨told, same⟩ := perform_of_finishes writes
    obtain ⟨answer, next⟩ := h.equals_of_calm fun whole balks => calm ⟨writes, whole, balks⟩
    rw [Agrees, same d, same e, answer]
    refine ⟨⟨rfl, ?_⟩, next⟩
    obtain ⟨-, log, kept⟩ := next
    rw [kept]
    rfl
  | false =>
    obtain ⟨bare, log, rfl⟩ := h
    cases time : x.time? with
    | some t =>
      cases x with
      | clock now => exact ⟨⟨rfl, rfl⟩, bare, log, rfl⟩
      | _ => cases time
    | none =>
      have ignores := ignores_perform writes blind time
      obtain ⟨history, now⟩ := ignores.kept e
      have same := ignores e (some { s with log }) e.now
      dsimp only at same
      rw [Agrees, same]
      refine ⟨⟨rfl, rfl⟩, history.trans bare, log, ?_⟩
      rw [now]

theorem Beside.not_agrees (h : d.Beside e s)
    (clashes : e.Clashes s x) : ¬ d.Agrees e x := by
  obtain ⟨writes, ⟨c, calculated⟩, balks⟩ := clashes
  obtain ⟨told, same⟩ := perform_of_finishes writes
  obtain ⟨⟨f, refused⟩, ⟨r, finished⟩⟩ := h.equals_of_balks calculated balks
  rintro ⟨answer, -⟩
  rw [same d, same e, refused, finished] at answer
  cases answer

/-- While each step agrees or at least does not clash, the one calculator stays beside the
other: a step that agrees does not clash either. -/
theorem Beside.after (h : d.Beside e s) {inputs : List Operation}
    (blind : ∀ x ∈ inputs, x.asks = false)
    (good : ∀ before x, before ++ [x] <+: inputs →
      (d.after before).Agrees (e.after before) x ∨ ¬ (e.after before).Clashes s x)
    (before : List Operation) (run : before <+: inputs) :
    (d.after before).Beside (e.after before) s := by
  induction before using List.reverseRecOn with
  | nil => exact h
  | append_singleton before x ih =>
    have here := (List.prefix_append before [x]).trans run
    have beside := ih here
    have member : x ∈ inputs := run.subset (by simp)
    have calm : ¬ (e.after before).Clashes s x := by
      rcases good before x run with agrees | calm
      · intro clashes
        exact beside.not_agrees clashes agrees
      · exact calm
    have next := (beside.perform (blind x member) calm).2
    rw [after_concat, after_concat]
    exact next

/-- Two calculators agree all along just if no calculation clashes with the store. -/
theorem Beside.agrees_iff (h : d.Beside e s) {inputs : List Operation}
    (blind : ∀ x ∈ inputs, x.asks = false) :
    (∀ before x, before ++ [x] <+: inputs → (d.after before).Agrees (e.after before) x) ↔
      ∀ before x, before ++ [x] <+: inputs → ¬ (e.after before).Clashes s x := by
  constructor
  · intro agrees before x run clashes
    have here := (List.prefix_append before [x]).trans run
    have beside := h.after blind (fun before x run => .inl (agrees before x run))
      before here
    exact beside.not_agrees clashes (agrees before x run)
  · intro calm before x run
    have here := (List.prefix_append before [x]).trans run
    have beside := h.after blind (fun before x run => .inr (calm before x run))
      before here
    have member : x ∈ inputs := run.subset (by simp)
    exact (beside.perform (blind x member) (calm before x run)).1

end Desk

/-- **A history makes no difference, unless its store balks.** Whatever settings are loaded
and whatever is found where the history is opened, the calculator agrees with one that has
no history, up to a calculation that is finished while the store could be written to, but
its capacity has more than 64 bits or the time can be told and not logged. -/
theorem agrees_iff_unbalked {directory : String} {file : Option Settings.Value}
    {overrides : Settings.Fields} {p : Settings.Profile}
    (loaded : Settings.load directory file overrides = .ok p) {files left : Directory}
    {address : Address} {store : Store}
    (opened : Store.openIn files address p.history.maxEntries = .ok (store, left)) {now : Instant}
    {inputs : List Operation} (dated : ∀ t ∈ Desk.times now inputs, t.Dated)
    (blind : ∀ x ∈ inputs, x.asks = false) :
    let d := Desk.start p.display p.angle p.mode (some store) now
    let e := Desk.start p.display p.angle p.mode none now
    (∀ before x, before ++ [x] <+: inputs →
      ((d.after before).perform x).1 = ((e.after before).perform x).1 ∧
        ((d.after before).perform x).2.state = ((e.after before).perform x).2.state) ↔
      ∀ before x, before ++ [x] <+: inputs → x.finishes = true →
        (∃ c, (e.after before).state.calculation = .ok (some c)) →
        ¬ (store.place.trouble? = none ∧ store.readOnly = false ∧
          (2 ^ 63 ≤ p.history.maxEntries ∨ ¬ (e.after before).now.Timely)) := by
  intro d e
  obtain ⟨tells, capacity⟩ := Store.tells_of_openIn opened
  have positive := Settings.maxEntries_pos loaded
  have wide : isStorable store.capacity = false ↔ 2 ^ 63 ≤ p.history.maxEntries := by
    rw [capacity, ← Bool.not_eq_true, isStorable_iff]
    omega
  have beside : d.Beside e store := ⟨rfl, store.log, rfl⟩
  have balks {before : List Operation} {x : Operation} (run : before ++ [x] <+: inputs) :
      store.Balks (e.after before).now ↔ _ :=
    Store.balks_iff_of_dated tells
      (dated _ (Desk.now_mem_times ((List.prefix_append before [x]).trans run)))
  refine (beside.agrees_iff blind).trans ?_
  constructor
  · intro calm before x run writes whole
    rw [← wide, ← balks run]
    exact fun clash => calm before x run ⟨writes, whole, clash⟩
  · rintro calm before x run ⟨writes, whole, clash⟩
    apply calm before x run writes whole
    rw [← wide, ← balks run]
    exact clash

/-- Overrides that ask for a history of so many entries, and the settings they make. -/
def asked (n : Int) : Settings.Fields :=
  [("history", .mapping [("max_entries", .int n), ("db_path", .text "h.db")])]

def granted (n : Int) : Settings.Profile := { history := { maxEntries := n, path := "h.db" } }

theorem agrees_one_entry :
    Settings.load "." none (asked 1) = .ok (granted 1) ∧
    Store.openIn (.empty .scratch) (Store.blank 1).address 1 =
      .ok (.blank 1, .empty .scratch) ∧
    ∀ before x, before ++ [x] <+: [.digit "1", .equals] →
      let d := Desk.start .standard .radians .advanced (some (.blank 1)) ⟨0⟩
      let e := Desk.start .standard .radians .advanced none ⟨0⟩
      ((d.after before).perform x).1 = ((e.after before).perform x).1 ∧
        ((d.after before).perform x).2.state = ((e.after before).perform x).2.state := by
  have loaded : Settings.load "." none (asked 1) = .ok (granted 1) := by rfl
  have opened : Store.openIn (.empty .scratch) (Store.blank 1).address 1 =
      .ok (.blank 1, .empty .scratch) := by
    decide +kernel
  have timely : ∀ t ∈ Desk.times ⟨0⟩ [.digit "1", .equals], t.Timely := by
    intro t ht
    obtain rfl : t = ⟨0⟩ := List.mem_singleton.mp ht
    rw [Instant.timely_iff]
    decide
  have dated : ∀ t ∈ Desk.times ⟨0⟩ [.digit "1", .equals], t.Dated := fun t ht => (timely t ht).1
  refine ⟨loaded, opened, (agrees_iff_unbalked loaded opened dated (by decide)).mpr ?_⟩
  rintro before x run - - ⟨-, -, wide | late⟩
  · exact absurd wide (by decide)
  · have here := (List.prefix_append before [x]).trans run
    exact late (timely _ (Desk.now_mem_times here))

/-- Settings admit a capacity that no entry can be stored with: equals raises, and what was
being typed is still there. So it is with any capacity at the very end of the year 9999. -/
theorem not_agrees_wide :
    let start (history : Option Store) (now : Instant) :=
      (Desk.start .standard .radians .advanced history now).after [.digit "1"]
    let wide := start (some (.blank (2 ^ 63))) ⟨0⟩
    let late := start (some (.blank 1)) ⟨253402300799999985⟩
    Settings.load "." none (asked (2 ^ 63)) = .ok (granted (2 ^ 63)) ∧
    Store.openIn (.empty .scratch) (Store.blank (2 ^ 63)).address (2 ^ 63) =
      .ok (.blank (2 ^ 63), .empty .scratch) ∧
    (wide.perform .equals).1 = .error (.history .integerTooWide) ∧
    (wide.perform .equals).2.state.entry = "1" ∧
    (late.perform .equals).1 = .error (.history (.clock (.yearOutOfRange 10000))) ∧
    (late.perform .equals).2.state.entry = "1" ∧
    ((start none ⟨0⟩).perform .equals).1.isOk = true ∧
    ((start none ⟨0⟩).perform .equals).2.state.entry = "" := by
  intro start wide late
  have loaded : Settings.load "." none (asked (2 ^ 63)) = .ok (granted (2 ^ 63)) := by rfl
  exact ⟨loaded, by decide +kernel⟩

end DeskCalculator.Calculator
