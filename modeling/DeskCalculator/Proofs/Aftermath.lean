import Mathlib.Data.List.TakeWhile
import DeskCalculator.Proofs.Enclosed
import DeskCalculator.Proofs.Fetching
import DeskCalculator.Proofs.Milliseconds

/-!
# What is left of an entry that fails

Most of what can go wrong with an entry does so before anything is stored, or is undone. Only the
date of the timestamp is looked for afterwards, and if there is none (`Store.Spills`) the entry
has failed and is stored: `record_failed_alike_iff`. It is gone again just if it is older than
all the others of a full store, which takes the numbers of the entries to be those given so far.
They are in every store that can be reached, also in those closed meanwhile (`Reachable.numbered`).
-/

namespace DeskCalculator.History
open Clock
open DeskCalculator.Expr (bind_eq_ok)

namespace Log

/-- If one is cut off again, it is the new entry just if all others are newer. -/
theorem take_insert_eq_iff {e : Entry} {es : List Entry} (other : e ∉ es) :
    (insert e es).take es.length = es ↔ ∀ x ∈ es, x.newer e = true := by
  rw [insert_eq, ← List.takeWhile_eq_self_iff]
  constructor
  · intro same
    rw [List.take_append] at same
    apply (List.takeWhile_prefix _).eq_of_length_le
    by_contra room
    obtain ⟨k, left⟩ := Nat.exists_eq_add_of_lt (Nat.lt_of_not_le room)
    apply other
    rw [← same, left, Nat.add_assoc, Nat.add_sub_cancel_left]
    exact List.mem_append_right _ List.mem_cons_self
  · intro all
    rw [all, List.take_left]

/-- A new entry changes nothing just if it is the one that goes. -/
theorem entries_record_eq_iff {log : Log} (numbered : log.Numbered) (capacity : Int)
    (expression result : String) (timestamp : Int) (created : Instant) :
    (log.record capacity expression result timestamp created).entries = log.entries ↔
      (log.entries.length : Int) = capacity ∧ ∀ x ∈ log.entries, timestamp < x.timestamp := by
  let e : Entry := ⟨log.lastId + 1, expression, result, timestamp, created⟩
  change atMost capacity (insert e log.entries) = log.entries ↔ _
  have fresh : ∀ x ∈ log.entries, x.id < e.id :=
    fun x there => Nat.lt_succ_of_le (numbered x there)
  have other : e ∉ log.entries := fun there => Nat.lt_irrefl _ (fresh e there)
  have newer (x : Entry) (there : x ∈ log.entries) :
      x.newer e = true ↔ timestamp < x.timestamp := Entry.newer_iff_of_id_lt (fresh x there)
  have last := (take_insert_eq_iff other).trans (forall₂_congr newer)
  constructor
  · intro same
    have count := (insert_perm e log.entries).length_eq
    have full := congrArg List.length same
    unfold atMost at same full
    split at full
    · rw [full, List.length_cons] at count
      omega
    · rename_i low
      rw [if_neg low] at same
      rw [List.length_take, count, List.length_cons] at full
      have exact : capacity.toNat = log.entries.length := by omega
      rw [exact] at same
      exact ⟨by omega, last.mp same⟩
  · rintro ⟨rfl, later⟩
    rw [atMost, if_neg (by omega), Int.toNat_natCast]
    exact last.mpr later

end Log

namespace Store

variable {s t : Store}

/-- What is stored is the same in both. -/
structure Alike (s t : Store) : Prop where
  recent : s.recent (some (-1)) = t.recent (some (-1))
  count : s.count = t.count
  get : ∀ id, s.get id = t.get id

theorem alike_self (s : Store) : s.Alike s := ⟨rfl, rfl, fun _ => rfl⟩

theorem alike_iff (usable : s.place.trouble? = none) (log : Log) :
    s.Alike { s with log } ↔ log.entries = s.log.entries := by
  have usable' : ({ s with log } : Store).place.trouble? = none := usable
  constructor
  · intro alike
    have recent := alike.recent
    rw [recent_of_usable usable, recent_of_usable usable', if_pos (by decide),
      if_pos (by decide)] at recent
    exact (Except.ok.inj recent).symm
  · intro same
    constructor
    · rw [recent_of_usable usable, recent_of_usable usable', Log.recent, Log.recent, same]
    · rw [count_of_usable usable, count_of_usable usable', same]
    · intro id
      rw [get_of_usable usable, get_of_usable usable', Log.find?, Log.find?, same]

/-- An entry of this timestamp fails and is stored. -/
structure Spills (s : Store) (stamp : Int) : Prop where
  usable : s.place.trouble? = none
  writable : s.readOnly = false
  narrow : isStorable s.capacity = true
  storable : isStorable stamp = true
  undated : ¬ (Instant.ofMillis stamp).Dated
  stays : ¬ ((s.log.entries.length : Int) = s.capacity ∧ ∀ e ∈ s.log.entries, stamp < e.timestamp)

/-- The others fail before anything is stored, if they fail. -/
theorem record_alike_iff (numbered : s.log.Numbered) (now : Instant) (expression result : String)
    (timestamp : Option Int) :
    (∀ f, (s.record now expression result timestamp).1 = .error f →
      s.Alike (s.record now expression result timestamp).2) ↔
        ¬ s.Spills (timestamp.getD now.epochMillis) := by
  have way := s.records now expression result timestamp rfl
  generalize timestamp.getD now.epochMillis = stamp at way ⊢
  generalize s.record now expression result timestamp = done at way ⊢
  cases way with
  | troubled trouble =>
    exact iff_of_true (fun _ _ => s.alike_self)
      fun spills => nomatch trouble.symm.trans spills.usable
  | unstorable _ high =>
    exact iff_of_true (fun _ _ => s.alike_self)
      fun spills => nomatch high.symm.trans spills.storable
  | unwritable _ _ readOnly =>
    exact iff_of_true (fun _ _ => s.alike_self)
      fun spills => nomatch readOnly.symm.trans spills.writable
  | wide _ _ _ wide =>
    exact iff_of_true (fun _ _ => s.alike_self)
      fun spills => nomatch wide.symm.trans spills.narrow
  | dated _ _ _ _ dated => exact iff_of_true nofun fun spills => spills.undated dated
  | undated usable storable writable narrow undated f =>
    have same := (alike_iff usable _).trans
      (Log.entries_record_eq_iff numbered s.capacity expression result stamp now)
    constructor
    · intro alike spills
      exact spills.stays (same.mp (alike _ rfl))
    · intro held _ _
      apply same.mpr
      by_contra stays
      exact held ⟨usable, writable, narrow, storable, undated, stays⟩

end Store

/-- Every log in the directory has the numbers given so far. -/
def Directory.Numbered (d : Directory) : Prop := ∀ file ∈ d.logs, file.2.Numbered

theorem Store.numbered_openIn {d left : Directory} {a : Address} {capacity : Int} {s : Store}
    (h : d.Numbered) (opened : openIn d a capacity = .ok (s, left)) :
    s.log.Numbered ∧ left.Numbered := by
  unfold openIn at opened
  split at opened
  · cases opened
  · rename_i found _
    cases opened
    constructor
    · change (d.logAt found.place).Numbered
      unfold Directory.logAt
      cases there : found.place.name?.bind fun name => d.logs.lookup name with
      | none => exact fun _ none => nomatch none
      | some log =>
        obtain ⟨name, -, file⟩ := Option.bind_eq_some_iff.mp there
        obtain ⟨before, after, listed, -⟩ := List.lookup_eq_some_iff.mp file
        refine h (name, log) ?_
        rw [listed]
        exact List.mem_append_right _ List.mem_cons_self
    · intro file there
      exact h file (List.mem_of_mem_filter there)

/-- Shelves that come of opening, recording, clearing and opening again. -/
inductive Shelf.Reachable : Shelf → Prop
  | openNew {folders : Folders} {address : String} {capacity : Int} {s : Shelf}
      (opened : Shelf.openNew address capacity folders = .ok s) : Reachable s
  | record {s : Shelf} (before : Reachable s) (now : Instant) (expression result : String)
      (timestamp : Option Int) :
      Reachable { s with store := (s.store.record now expression result timestamp).2 }
  | clear {s : Shelf} (before : Reachable s) : Reachable { s with store := s.store.clear.2 }
  | reopen {s : Shelf} (before : Reachable s) (address : String) (capacity : Int) :
      Reachable (s.reopen address capacity).2

namespace Shelf

variable {s : Shelf}

theorem numbered_directory (kept : s.store.log.Numbered) (closed : s.closed.Numbered) :
    s.directory.Numbered := by
  unfold directory
  split
  · intro file there
    rcases List.mem_cons.mp there with rfl | there
    · exact kept
    · exact closed file there
  · exact closed

theorem Reachable.numbered (h : s.Reachable) : s.store.log.Numbered ∧ s.closed.Numbered := by
  induction h with
  | @openNew folders address capacity s opened =>
    obtain ⟨store, new, alone⟩ := bind_eq_ok.mp opened
    cases alone
    unfold Store.openNew at new
    split at new
    · cases new
    · rename_i a _
      cases made : Store.openIn (.empty folders) a capacity with
      | error f =>
        rw [made] at new
        cases new
      | ok placed =>
        rw [made] at new
        cases new
        have empty : (Directory.empty folders).Numbered := fun _ there => absurd there List.not_mem_nil
        exact ⟨(Store.numbered_openIn empty made).1, empty⟩
  | @record s before now expression result timestamp ih =>
    exact ⟨(Store.Later.same.record now expression result timestamp).numbered ih.1, ih.2⟩
  | clear before ih => exact ⟨Store.Later.same.clear.numbered ih.1, ih.2⟩
  | @reopen s before address capacity ih =>
    unfold Shelf.reopen
    split
    · exact ih
    · split
      · rename_i opened
        exact Store.numbered_openIn (numbered_directory ih.1 ih.2) opened
      · exact ih

end Shelf

/-- **An entry that fails leaves what is stored as it was unless it spills,** which it does just if
all the integers fit, its timestamp has no date, and it is not at once the one that goes. -/
theorem record_failed_alike_iff {shelf : Shelf} (reached : shelf.Reachable) (now : Instant)
    (expression result : String) (timestamp : Option Int) :
    (∀ f, (shelf.store.record now expression result timestamp).1 = .error f →
      shelf.store.Alike (shelf.store.record now expression result timestamp).2) ↔
        ¬ shelf.store.Spills (timestamp.getD now.epochMillis) :=
  Store.record_alike_iff reached.numbered.1 now expression result timestamp

/-- The first millisecond of the year 10000 is stored, and has no date. -/
theorem record_failed_past_years : pair.Reachable ∧ pair.store.Spills 253402300800000 ∧
    (pair.store.record ⟨0⟩ "1 + 1" "2" (some 253402300800000)).1 =
      .error (.clock (.yearOutOfRange 10000)) ∧
    ¬ pair.store.Alike (pair.store.record ⟨0⟩ "1 + 1" "2" (some 253402300800000)).2 := by
  have opened : Shelf.openNew "h.db" 2 = .ok pair := by decide +kernel
  have reached : pair.Reachable := .openNew opened
  have failed : (pair.store.record ⟨0⟩ "1 + 1" "2" (some 253402300800000)).1 =
      .error (.clock (.yearOutOfRange 10000)) := by decide +kernel
  have spills : pair.store.Spills 253402300800000 := by
    constructor <;> decide +kernel
  refine ⟨reached, spills, failed, fun alike => ?_⟩
  refine (record_failed_alike_iff reached ⟨0⟩ "1 + 1" "2" (some 253402300800000)).mp ?_ spills
  exact fun _ _ => alike

theorem not_record_failed_alike :
    ¬ ∀ shelf : Shelf, shelf.Reachable → ∀ now expression result timestamp f,
      (shelf.store.record now expression result timestamp).1 = .error f →
        shelf.store.Alike (shelf.store.record now expression result timestamp).2 := by
  intro always
  have opened : Shelf.openNew "h.db" 2 = .ok pair := by decide +kernel
  have alike := always pair (.openNew opened) ⟨0⟩ "1 + 1" "2" (some 253402300800000)
    (.clock (.yearOutOfRange 10000)) (by decide +kernel)
  have count := alike.count
  revert count
  decide +kernel

end DeskCalculator.History
