import Mathlib.Data.List.Sort
import DeskCalculator.History.Log

/-!
# The log keeps the newest

An entry is put in its place and the rest is cut off at once. `Log.Retains` says that what
is left is what one selection among all entries would leave: what has been cut off once
would never be among the newest again (`take_insert`), so nothing is missed.
-/

namespace DeskCalculator.History
open Clock

namespace Entry

/-- What a user sees of an entry. -/
def row (e : Entry) : String × String × Int := (e.expression, e.result, e.timestamp)

/-- The order of the log, in which an entry is before those that are older. -/
def notOlder (a b : Entry) : Bool := !b.newer a

theorem notOlder_iff (a b : Entry) :
    a.notOlder b = true ↔ b.timestamp < a.timestamp ∨ b.timestamp = a.timestamp ∧ b.id ≤ a.id := by
  simp only [notOlder, newer, Bool.not_eq_true', Bool.or_eq_false_iff, Bool.and_eq_false_iff,
    decide_eq_false_iff_not, beq_eq_false_iff_ne]
  omega

theorem notOlder_trans (a b c : Entry) (hab : a.notOlder b = true) (hbc : b.notOlder c = true) :
    a.notOlder c = true := by
  rw [notOlder_iff] at *
  omega

theorem notOlder_total (a b : Entry) : (a.notOlder b || b.notOlder a) = true := by
  rw [Bool.or_eq_true, notOlder_iff, notOlder_iff]
  omega

theorem notOlder_of_newer {a b : Entry} (h : a.newer b = true) : a.notOlder b = true := by
  have total := notOlder_total b a
  rwa [notOlder, h, Bool.not_true, Bool.false_or] at total

/-- Two entries that are not older than each other have one number. -/
theorem id_eq_of_notOlder {a b : Entry} (hab : a.notOlder b = true) (hba : b.notOlder a = true) :
    a.id = b.id := by
  rw [notOlder_iff] at *
  omega

end Entry

/-- The newest of all the entries, the newest first. -/
def newest (limit : Nat) (es : List Entry) : List Entry := (es.mergeSort Entry.notOlder).take limit

/-- No entry is older than one that comes after it. -/
def Descending (es : List Entry) : Prop := es.Pairwise fun a b => a.notOlder b = true

theorem descending_mergeSort (es : List Entry) : Descending (es.mergeSort Entry.notOlder) :=
  List.pairwise_mergeSort Entry.notOlder_trans Entry.notOlder_total es

/-- Entries with numbers of their own have one order. -/
theorem Descending.eq_of_perm {es fs : List Entry} (he : Descending es) (hf : Descending fs)
    (perm : es.Perm fs) (distinct : (es.map Entry.id).Nodup) : es = fs := by
  apply perm.eq_of_pairwise _ he hf
  intro a b ha hb hab hba
  exact List.inj_on_of_nodup_map distinct ha (perm.mem_iff.mpr hb) (Entry.id_eq_of_notOlder hab hba)

namespace Log

theorem insert_perm (e : Entry) (es : List Entry) : (insert e es).Perm (e :: es) := by
  induction es with
  | nil => exact List.Perm.refl _
  | cons x rest ih =>
    unfold insert
    split
    · exact (ih.cons x).trans (List.Perm.swap e x rest)
    · exact List.Perm.refl _

theorem descending_insert {e : Entry} {es : List Entry} (h : Descending es) :
    Descending (insert e es) := by
  induction es with
  | nil => exact List.pairwise_singleton _ e
  | cons x rest ih =>
    obtain ⟨first, later⟩ := List.pairwise_cons.mp h
    unfold insert
    by_cases newer : x.newer e = true
    · rw [if_pos newer]
      refine List.pairwise_cons.mpr ⟨?_, ih later⟩
      intro y hy
      rcases List.mem_cons.mp ((insert_perm e rest).mem_iff.mp hy) with rfl | old
      · exact Entry.notOlder_of_newer newer
      · exact first y old
    · have before : e.notOlder x = true := by
        rw [Entry.notOlder, Bool.eq_false_iff.mpr newer]
        rfl
      rw [if_neg newer]
      refine List.pairwise_cons.mpr ⟨?_, h⟩
      intro y hy
      rcases List.mem_cons.mp hy with rfl | old
      · exact before
      · exact Entry.notOlder_trans e x y before (first y old)

/-- An entry that has been cut off does not come back, whatever else is put in. -/
theorem take_insert (e : Entry) (es : List Entry) (limit : Nat) :
    (insert e (es.take limit)).take limit = (insert e es).take limit := by
  induction es generalizing limit with
  | nil => rw [List.take_nil]
  | cons x rest ih =>
    cases limit with
    | zero => simp
    | succ limit =>
      rw [List.take_succ_cons]
      unfold insert
      split
      · rw [List.take_succ_cons, List.take_succ_cons, ih]
      · cases limit with
        | zero => simp
        | succ limit => simp [List.take_take]

theorem insert_mergeSort {e : Entry} {es : List Entry} (distinct : ((e :: es).map Entry.id).Nodup) :
    insert e (es.mergeSort Entry.notOlder) = (e :: es).mergeSort Entry.notOlder := by
  have sorted := es.mergeSort_perm Entry.notOlder
  have perm := (insert_perm e _).trans (sorted.cons e)
  apply (descending_insert (descending_mergeSort es)).eq_of_perm (descending_mergeSort (e :: es))
  · exact perm.trans ((e :: es).mergeSort_perm Entry.notOlder).symm
  · exact (perm.map Entry.id).nodup_iff.mpr distinct

/-- The log holds the newest of the entries made. -/
structure Retains (log : Log) (limit : Nat) (made : List Entry) : Prop where
  entries : log.entries = newest limit made
  numbered : ∀ e ∈ made, e.id ≤ log.lastId
  distinct : (made.map Entry.id).Nodup

variable {log : Log} {limit : Nat} {made : List Entry}

theorem Retains.record (h : log.Retains limit made) (expression result : String)
    (timestamp : Int) (created : Instant) :
    (log.record limit expression result timestamp created).Retains limit
      (⟨log.lastId + 1, expression, result, timestamp, created⟩ :: made) := by
  generalize new : (⟨log.lastId + 1, expression, result, timestamp, created⟩ : Entry) = e
  have number : e.id = log.lastId + 1 := by rw [← new]
  have distinct : ((e :: made).map Entry.id).Nodup := by
    rw [List.map_cons, List.nodup_cons]
    refine ⟨?_, h.distinct⟩
    intro taken
    obtain ⟨old, member, same⟩ := List.mem_map.mp taken
    have := h.numbered old member
    omega
  refine ⟨?_, ?_, distinct⟩
  · calc (log.record limit expression result timestamp created).entries
        = (insert e log.entries).take limit := by simp [Log.record, atMost, new]
      _ = (insert e (made.mergeSort Entry.notOlder)).take limit := by
        rw [h.entries, newest, take_insert]
      _ = newest limit (e :: made) := by rw [insert_mergeSort distinct, newest]
  · intro x hx
    have last : (log.record limit expression result timestamp created).lastId = log.lastId + 1 := rfl
    rcases List.mem_cons.mp hx with rfl | old
    · omega
    · have := h.numbered x old
      omega

theorem retains_clear (log : Log) (limit : Nat) : log.clear.Retains limit [] :=
  ⟨by simp [Log.clear, newest], by simp, by simp⟩

theorem retains_empty (limit : Nat) : Log.empty.Retains limit [] := retains_clear ⟨[], 0⟩ limit

theorem Retains.find?_eq_some_iff (h : log.Retains limit made) (i : Int) (e : Entry) :
    log.find? i = some e ↔ e ∈ newest limit made ∧ (e.id : Int) = i := by
  have distinct : (log.entries.map Entry.id).Nodup := by
    rw [h.entries, newest]
    apply List.Nodup.sublist ((List.take_sublist _ _).map _)
    exact ((made.mergeSort_perm _).map Entry.id).nodup_iff.mpr h.distinct
  rw [← h.entries, Log.find?]
  constructor
  · intro found
    exact ⟨List.mem_of_find?_eq_some found, by simpa using List.find?_some found⟩
  · rintro ⟨member, number⟩
    cases found : log.entries.find? fun e => (e.id : Int) == i with
    | none =>
      have none := List.find?_eq_none.mp found e member
      simp [number] at none
    | some x =>
      have same : (x.id : Int) = i := by simpa using List.find?_some found
      rw [List.inj_on_of_nodup_map distinct (List.mem_of_find?_eq_some found) member (by omega)]

end Log

/-- With a timestamp each, the rows that are left do not depend on the order in which the
entries were made, though their numbers do. -/
theorem newest_rows_eq {made made' : List Entry} (limit : Nat)
    (perm : (made.map Entry.row).Perm (made'.map Entry.row))
    (apart : (made.map Entry.timestamp).Nodup) :
    (newest limit made).map Entry.row = (newest limit made').map Entry.row := by
  have order (es : List Entry) : ((es.mergeSort Entry.notOlder).map Entry.row).Pairwise
      fun a b => b.2.2 ≤ a.2.2 := by
    rw [List.pairwise_map]
    apply (descending_mergeSort es).imp
    intro a b hab
    rw [Entry.notOlder_iff] at hab
    change b.timestamp ≤ a.timestamp
    omega
  have shuffled (es : List Entry) :
      ((es.mergeSort Entry.notOlder).map Entry.row).Perm (es.map Entry.row) :=
    (es.mergeSort_perm Entry.notOlder).map Entry.row
  have stamps : ((made.map Entry.row).map fun r => r.2.2).Nodup := by
    rw [List.map_map]
    exact apart
  have same : (made.mergeSort Entry.notOlder).map Entry.row =
      (made'.mergeSort Entry.notOlder).map Entry.row := by
    apply ((shuffled made).trans (perm.trans (shuffled made').symm)).eq_of_pairwise _
      (order made) (order made')
    intro a b ha hb hab hba
    have hb' := perm.mem_iff.mpr ((shuffled made').mem_iff.mp hb)
    exact List.inj_on_of_nodup_map stamps ((shuffled made).mem_iff.mp ha) hb' (by omega)
  rw [newest, newest, List.map_take, List.map_take, same]

end DeskCalculator.History
