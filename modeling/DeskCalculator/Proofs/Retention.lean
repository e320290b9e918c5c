import Mathlib.Data.List.Induction
import DeskCalculator.Proofs.Newest
import DeskCalculator.Proofs.Reopening
import DeskCalculator.Proofs.Storing

/-!
# What a store keeps

A store cuts its log off after each entry, and never looks at the others again. Still it
holds what one selection would take from all the entries since it was last cleared, and
what it answers is read off that selection: `kept_eq_newest`.
-/

namespace DeskCalculator.History
open Clock

namespace Store

variable {s : Store}

theorem clear_log (usable : s.place.trouble? = none) (writable : s.readOnly = false) :
    s.clear.2 = { s with log := s.log.clear } := by
  simp [clear, usable, writable]

theorem recent_of_usable (usable : s.place.trouble? = none) (limit : Int) :
    s.recent (some limit) =
      if isStorable limit then .ok (s.log.recent limit) else .error .integerTooWide := by
  simp [recent, usable]

theorem get_of_usable (usable : s.place.trouble? = none) (i : Int) :
    s.get i = if isStorable i then .ok (s.log.find? i) else .error .integerTooWide := by
  simp [get, usable]

theorem count_of_usable (usable : s.place.trouble? = none) : s.count = s.log.entries.length := by
  simp [count, usable, Log.count]

end Store

/-- What is done to a store. -/
inductive Use where
  | record (now : Instant) (expression result : String) (timestamp : Option Int)
  | clear
  /-- The store is opened again under its address, with the same capacity. -/
  | reopen
  deriving DecidableEq

namespace Use

def apply (address : String) (capacity : Int) (s : Shelf) : Use → Shelf
  | record now expression result timestamp =>
    { s with store := (s.store.record now expression result timestamp).2 }
  | clear => { s with store := s.store.clear.2 }
  | reopen => (s.reopen address capacity).2

/-- The count of entries so far, and those since the last clearing, the last one first. One
with a timestamp of more than 64 bits is refused, and is none. -/
def note (past : Nat × List Entry) : Use → Nat × List Entry
  | record now expression result timestamp =>
    let stamp := timestamp.getD now.epochMillis
    if isStorable stamp then
      (past.1 + 1, ⟨past.1 + 1, expression, result, stamp, now⟩ :: past.2)
    else past
  | clear => (past.1, [])
  | reopen => past

end Use

def Shelf.after (s : Shelf) (address : String) (capacity : Int) (uses : List Use) : Shelf :=
  uses.foldl (Use.apply address capacity) s

/-- How many entries there have been, and those since the last clearing. -/
def past (uses : List Use) : Nat × List Entry := uses.foldl Use.note (0, [])

def made (uses : List Use) : List Entry := (past uses).2

/-- The shelf holds the newest of the past. -/
structure Shelf.Keeps (s : Shelf) (limit : Nat) (past : Nat × List Entry) : Prop where
  retains : s.store.log.Retains limit past.2
  number : s.store.log.lastId = past.1

namespace Shelf

variable {s : Shelf} {a : Address} {name : Text.Bytes} {capacity : Int} {seen : Nat × List Entry}

theorem Stands.usable (h : s.Stands a name capacity) : s.store.place.trouble? = none := by
  rw [h.place]
  rfl

/-- What each use makes of the log. -/
theorem Keeps.apply (h : s.Keeps capacity.toNat seen) (stands : s.Stands a name capacity)
    {address : String} (text : Address.ofText? address = some a) (low : 0 ≤ capacity)
    (high : capacity < 2 ^ 63) (u : Use) :
    (u.apply address capacity s).Keeps capacity.toNat (u.note seen) ∧
      (u.apply address capacity s).Stands a name capacity := by
  cases u with
  | record now expression result timestamp =>
    simp only [Use.apply, Use.note]
    cases stamp : isStorable (timestamp.getD now.epochMillis) with
    | false =>
      rw [Store.record_of_unstorable stands.usable stamp, if_neg (by simp)]
      exact ⟨h, stands⟩
    | true =>
      have storable : isStorable s.store.capacity = true := by
        rw [stands.capacity]
        exact isStorable_iff.mpr (by omega)
      have limit : s.store.capacity = capacity.toNat := by rw [stands.capacity]; omega
      have retains := h.retains.record expression result (timestamp.getD now.epochMillis) now
      rw [← limit, h.number] at retains
      rw [Store.record_log stands.usable stands.writable storable now expression result stamp,
        if_pos rfl]
      refine ⟨⟨retains, ?_⟩, ?_⟩
      · simp only [Log.record, h.number]
      · exact ⟨stands.address, stands.place, stands.writable, stands.capacity, stands.leads,
          stands.bare, stands.own⟩
  | clear =>
    simp only [Use.apply, Use.note, Store.clear_log stands.usable stands.writable]
    refine ⟨⟨Log.retains_clear _ _, h.number⟩, ?_⟩
    exact ⟨stands.address, stands.place, stands.writable, stands.capacity, stands.leads,
      stands.bare, stands.own⟩
  | reopen =>
    simp only [Use.apply, Use.note, stands.reopen text]
    refine ⟨⟨h.retains, h.number⟩, ?_⟩
    refine ⟨stands.address, stands.place, stands.writable, stands.capacity, stands.leads,
      stands.bare, ?_⟩
    intro log there
    rcases List.mem_cons.mp there with rfl | there
    · rfl
    · exact stands.own log there

theorem keeps_of_empty (empty : s.store.log = .empty) (limit : Nat) : s.Keeps limit (0, []) := by
  constructor
  · rw [empty]
    exact Log.retains_empty _
  · rw [empty]
    rfl

theorem Keeps.after (first : s.Keeps capacity.toNat (0, [])) (stands : s.Stands a name capacity)
    {address : String} (text : Address.ofText? address = some a) (low : 0 ≤ capacity)
    (high : capacity < 2 ^ 63) (uses : List Use) :
    (s.after address capacity uses).Keeps capacity.toNat (past uses) ∧
      (s.after address capacity uses).Stands a name capacity := by
  induction uses using List.reverseRecOn with
  | nil => exact ⟨first, stands⟩
  | append_singleton before u ih =>
    obtain ⟨keeps, stays⟩ := ih
    have next := keeps.apply stays text low high u
    rw [Shelf.after, past, List.foldl_append, List.foldl_append]
    exact next

/-- **A new store keeps what it has room for,** whatever it is used for. -/
theorem keeps_of_openNew {folders : Folders} {address : String}
    (opened : openNew address capacity folders = .ok s) (usable : s.store.place.trouble? = none)
    (low : 0 ≤ capacity) (high : capacity < 2 ^ 63) (uses : List Use) :
    ∃ a name, (s.after address capacity uses).Keeps capacity.toNat (past uses) ∧
      (s.after address capacity uses).Stands a name capacity := by
  obtain ⟨empty, a, name, text, stands⟩ := stands_of_openNew opened usable
  exact ⟨a, name, (keeps_of_empty empty _).after stands text low high uses⟩

end Shelf

/-- **A store keeps the newest of all the entries since it was last cleared,** wherever it lies
and however they came, and is asked for no more than that. With timestamps of their own the
rows it keeps do not depend on the order in which they came. -/
theorem kept_eq_newest {folders : Folders} {address : String} {capacity : Int} {shelf : Shelf}
    (opened : Shelf.openNew address capacity folders = .ok shelf)
    (usable : shelf.store.place.trouble? = none) (low : 0 ≤ capacity) (high : capacity < 2 ^ 63)
    (uses : List Use) :
    let store (uses : List Use) := (shelf.after address capacity uses).store
    let kept := newest capacity.toNat (made uses)
    (store uses).recent (some (-1)) = .ok kept ∧
    (store uses).count = kept.length ∧
    (∀ k : Nat, (store uses).recent (some k) =
      if k < 2 ^ 63 then .ok (kept.take k) else .error .integerTooWide) ∧
    (∀ (i : Int) e, (store uses).get i = .ok (some e) ↔
      e ∈ kept ∧ (e.id : Int) = i ∧ i < 2 ^ 63) ∧
    ∀ uses', ((made uses').map Entry.row).Perm ((made uses).map Entry.row) →
      ((made uses).map Entry.timestamp).Nodup →
      ∃ kept', (store uses').recent (some (-1)) = .ok kept' ∧
        kept'.map Entry.row = kept.map Entry.row := by
  intro store kept
  have all (uses : List Use) :
      (store uses).recent (some (-1)) = .ok (newest capacity.toNat (made uses)) := by
    obtain ⟨_, _, holds, stays⟩ := Shelf.keeps_of_openNew opened usable low high uses
    rw [Store.recent_of_usable stays.usable, if_pos (by decide), Log.recent, holds.retains.entries]
    rfl
  obtain ⟨_, _, holds, stays⟩ := Shelf.keeps_of_openNew opened usable low high uses
  have entries : (store uses).log.entries = kept := holds.retains.entries
  refine ⟨all uses, ?_, ?_, ?_, ?_⟩
  · rw [Store.count_of_usable stays.usable, entries]
  · intro k
    have storable : isStorable k = decide (k < 2 ^ 63) := by
      rw [Bool.eq_iff_iff, isStorable_iff, decide_eq_true_iff]
      omega
    have first : (store uses).log.recent k = kept.take k := by
      rw [Log.recent, entries, atMost, if_neg (by omega), Int.toNat_natCast]
    rw [Store.recent_of_usable stays.usable, storable, first]
    simp only [decide_eq_true_eq]
  · intro i e
    rw [Store.get_of_usable stays.usable]
    by_cases storable : isStorable i = true
    · have range := (isStorable_iff.mp storable).2
      rw [if_pos storable, Except.ok.injEq, holds.retains.find?_eq_some_iff]
      exact ⟨fun found => ⟨found.1, found.2, range⟩, fun found => ⟨found.1, found.2.1⟩⟩
    · rw [if_neg storable]
      refine iff_of_false (by simp) ?_
      rintro ⟨-, number, range⟩
      exact storable (isStorable_iff.mpr (by omega))
  · intro uses' perm apart
    refine ⟨_, all uses', ?_⟩
    exact (newest_rows_eq capacity.toNat perm.symm apart).symm

/-- A shelf with a new store of two entries. -/
def pair : Shelf := ⟨.blank 2, .empty .scratch⟩

/-- The newest entry first, one that is refused, and the oldest in the middle, after which the
store is opened again. -/
def jumbled : List Use :=
  [.record ⟨0⟩ "1 + 1" "2" (some 3000), .record ⟨0⟩ "9" "9" (some (2 ^ 63)),
    .record ⟨0⟩ "1 / 0" "Error" (some 1000), .reopen, .record ⟨0⟩ "2 * 2" "4" (some 2000)]

/-- In a directory two levels below the root, on the way up from the one to work in. -/
theorem kept_jumbled :
    let folders : Folders :=
      { Folders.scratch with others := [[Text.utf8 "var"], [Text.utf8 "stores", Text.utf8 "var"]] }
    let address := "../../var/stores/h.db"
    let shelf : Shelf := ⟨⟨⟨Text.utf8 address, []⟩, .named (Text.utf8 "/var/stores/h.db"), false, 2,
      .empty⟩, .empty folders⟩
    Shelf.openNew address 2 folders = .ok shelf ∧ shelf.store.place.trouble? = none ∧
    (shelf.after address 2 jumbled).store.recent (some (-1)) = .ok (newest 2 (made jumbled)) ∧
    newest 2 (made jumbled) =
      [⟨1, "1 + 1", "2", 3000, ⟨0⟩⟩, ⟨3, "2 * 2", "4", 2000, ⟨0⟩⟩] := by
  intro folders address shelf
  have opened : Shelf.openNew address 2 folders = .ok shelf := by decide +kernel
  have usable : shelf.store.place.trouble? = none := rfl
  have kept := (kept_eq_newest opened usable (by decide) (by decide) jumbled).1
  have left : (shelf.after address 2 jumbled).store.recent (some (-1)) =
      .ok [⟨1, "1 + 1", "2", 3000, ⟨0⟩⟩, ⟨3, "2 * 2", "4", 2000, ⟨0⟩⟩] := by decide +kernel
  exact ⟨opened, usable, kept, Except.ok.inj (kept.symm.trans left)⟩

/-- A limit of more than 64 bits is refused, though there is no more than one entry. -/
theorem recent_beyond_word :
    let s := (pair.after "h.db" 2 [.record ⟨0⟩ "1 + 1" "2" (some 3000)]).store
    s.recent (some (-1)) = .ok [⟨1, "1 + 1", "2", 3000, ⟨0⟩⟩] ∧
      s.recent (some (2 ^ 63)) = .error .integerTooWide := by
  decide +kernel

end DeskCalculator.History
