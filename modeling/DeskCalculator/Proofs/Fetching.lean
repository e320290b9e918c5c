import DeskCalculator.Proofs.Numbered
import DeskCalculator.Proofs.Retention

/-!
# Whether an entry can be fetched

The number that a new entry is told under is no promise. The entry goes to its place among the
others, and the one that is last then may go, also if it is the new one. `get_recorded`: under
the number there is the entry unless as many newer ones as the store has room for were there
before, and but for the one that goes the others are left as they were.
-/

namespace DeskCalculator.History
open Clock

theorem Entry.newer_iff_of_id_lt {x e : Entry} (h : x.id < e.id) :
    x.newer e = true ↔ e.timestamp < x.timestamp := by
  have other : ¬ e.id < x.id := Nat.not_lt_of_lt h
  simp [newer, other]

namespace Log

/-- A new entry is put behind all that are newer. -/
theorem insert_eq (e : Entry) (es : List Entry) :
    insert e es = es.takeWhile (·.newer e) ++ e :: es.dropWhile (·.newer e) := by
  induction es with
  | nil => rfl
  | cons x rest ih =>
    unfold insert
    cases newer : x.newer e with
    | true => simp [newer, ih]
    | false => simp [newer]

/-- Of entries in order, those that a new one is put behind have a later timestamp. -/
theorem length_takeWhile_newer {e : Entry} {es : List Entry} (order : Descending es)
    (fresh : ∀ x ∈ es, x.id < e.id) :
    (es.takeWhile (·.newer e)).length = es.countP fun x => e.timestamp < x.timestamp := by
  induction es with
  | nil => rfl
  | cons x rest ih =>
    obtain ⟨first, later⟩ := List.pairwise_cons.mp order
    have number := fresh x List.mem_cons_self
    have newer : x.newer e = decide (e.timestamp < x.timestamp) := by
      rw [Bool.eq_iff_iff, Entry.newer_iff_of_id_lt number, decide_eq_true_iff]
    rw [List.countP_cons, List.takeWhile_cons, newer]
    by_cases late : e.timestamp < x.timestamp
    · have := ih later fun y hy => fresh y (List.mem_cons_of_mem x hy)
      simp only [late, decide_true, ↓reduceIte, List.length_cons]
      omega
    · have none : rest.countP (fun y => e.timestamp < y.timestamp) = 0 := by
        rw [List.countP_eq_zero]
        intro y hy
        have := (Entry.notOlder_iff x y).mp (first y hy)
        rw [decide_eq_true_iff]
        omega
      simp [late, none]

/-- A new entry is among the first just if fewer than that have a later timestamp. -/
theorem mem_take_insert {e : Entry} {es : List Entry} (order : Descending es)
    (fresh : ∀ x ∈ es, x.id < e.id) (limit : Nat) :
    e ∈ (insert e es).take limit ↔ es.countP (fun x => e.timestamp < x.timestamp) < limit := by
  rw [← length_takeWhile_newer order fresh, insert_eq, List.take_append, List.mem_append]
  have other : e ∉ es := fun there => Nat.lt_irrefl _ (fresh e there)
  constructor
  · rintro (front | back)
    · exact absurd ((List.takeWhile_prefix _).subset (List.mem_of_mem_take front)) other
    · apply Nat.lt_of_sub_pos
      apply Nat.pos_of_ne_zero
      intro none
      rw [none] at back
      cases back
  · intro room
    obtain ⟨k, left⟩ := Nat.exists_eq_succ_of_ne_zero (Nat.sub_ne_zero_of_lt room)
    rw [left]
    exact .inr List.mem_cons_self

variable {log : Log} {limit : Nat} {made : List Entry}

theorem Retains.descending (h : log.Retains limit made) : Descending log.entries := by
  rw [h.entries]
  exact (descending_mergeSort made).sublist (List.take_sublist _ _)

theorem Retains.numbers (h : log.Retains limit made) : log.Numbered := by
  intro e there
  rw [h.entries] at there
  exact h.numbered e ((made.mergeSort_perm _).mem_iff.mp (List.mem_of_mem_take there))

/-- A new entry is found by its number just if it is among the newest. -/
theorem Retains.find?_record (h : log.Retains limit made) (expression result : String)
    (timestamp : Int) (created : Instant) :
    let e : Entry := ⟨log.lastId + 1, expression, result, timestamp, created⟩
    (log.record limit expression result timestamp created).find? e.id =
      if log.entries.countP (fun x => timestamp < x.timestamp) < limit then some e else none := by
  intro e
  have fresh : ∀ x ∈ log.entries, x.id < e.id := fun x there => Nat.lt_succ_of_le (h.numbers x there)
  have entries : (log.record limit expression result timestamp created).entries =
      (insert e log.entries).take limit := by simp [Log.record, atMost, e]
  have retains := h.record expression result timestamp created
  have among := mem_take_insert h.descending fresh limit
  rw [← entries, retains.entries] at among
  split
  · rename_i room
    exact (retains.find?_eq_some_iff e.id e).mpr ⟨among.mpr room, rfl⟩
  · rename_i full
    rw [Option.eq_none_iff_forall_ne_some]
    intro x found
    obtain ⟨there, same⟩ := (retains.find?_eq_some_iff e.id x).mp found
    rw [← retains.entries] at there
    rcases mem_record there with rfl | old
    · exact full (among.mp (retains.entries ▸ there))
    · have := fresh x old
      omega

/-- What goes to make room for a new entry is one entry at most, in a full log, and older than
all that are left. -/
theorem record_spares (h : Descending log.entries) (short : log.entries.length ≤ limit) (e : Entry) :
    ∃ gone, (((insert e log.entries).take limit) ++ gone).Perm (e :: log.entries) ∧
      gone.length ≤ 1 ∧ (gone ≠ [] → ((insert e log.entries).take limit).length = limit) ∧
      ∀ x ∈ gone, ∀ y ∈ (insert e log.entries).take limit, y.notOlder x = true := by
  have count : (insert e log.entries).length = log.entries.length + 1 :=
    (insert_perm e log.entries).length_eq
  have order := descending_insert (e := e) h
  rw [Descending, ← List.take_append_drop limit (insert e log.entries),
    List.pairwise_append] at order
  refine ⟨(insert e log.entries).drop limit, ?_, ?_, ?_, fun x gone y left => order.2.2 y left x gone⟩
  · rw [List.take_append_drop]
    exact insert_perm e log.entries
  · rw [List.length_drop]
    omega
  · intro some
    have := List.length_pos_of_ne_nil some
    rw [List.length_drop] at this
    rw [List.length_take]
    omega

end Log

/-- What a store tells and keeps when it is given an entry. -/
theorem Shelf.Stands.told {s : Shelf} {a : Address} {name : Text.Bytes} {capacity : Int}
    (h : s.Stands a name capacity) (low : 0 ≤ capacity) {now : Instant}
    {expression result : String} {timestamp : Option Int} {id : Nat}
    (told : (s.store.record now expression result timestamp).1 = .ok id) :
    id = s.store.log.lastId + 1 ∧
      (s.store.record now expression result timestamp).2 = { s.store with
        log := s.store.log.record capacity.toNat expression result
          (timestamp.getD now.epochMillis) now } := by
  have limit : s.store.capacity = capacity.toNat := by
    rw [h.capacity]
    omega
  rcases s.store.record_cases now expression result timestamp with
    ⟨f, failed⟩ | ⟨-, -, -, logged, number⟩
  · rw [failed] at told
    cases told
  · rw [← limit]
    exact ⟨number id told, logged⟩

/-- **An entry can be fetched by its number unless as many are newer as there is room for.** The
rest stays as it is, but for one entry at most, older than all that are left in a full store. -/
theorem get_recorded {folders : Folders} {address : String} {capacity : Int} {shelf : Shelf}
    (opened : Shelf.openNew address capacity folders = .ok shelf)
    (usable : shelf.store.place.trouble? = none) (low : 0 ≤ capacity) (high : capacity < 2 ^ 63)
    {uses : List Use} {now : Instant} {expression result : String} {timestamp : Option Int}
    {id : Nat}
    (told : ((shelf.after address capacity uses).store.record now expression result timestamp).1 =
      .ok id) :
    let before := (shelf.after address capacity uses).store
    let after := (before.record now expression result timestamp).2
    let e : Entry := ⟨id, expression, result, timestamp.getD now.epochMillis, now⟩
    ∃ kept left gone, before.recent (some (-1)) = .ok kept ∧ after.recent (some (-1)) = .ok left ∧
      (left ++ gone).Perm (e :: kept) ∧ gone.length ≤ 1 ∧
      (gone ≠ [] → left.length = capacity.toNat) ∧ (∀ x ∈ gone, ∀ y ∈ left, y.notOlder x = true) ∧
      (id < 2 ^ 63 → after.get id =
        .ok (if kept.countP (fun x => e.timestamp < x.timestamp) < capacity.toNat then some e
          else none)) := by
  obtain ⟨_, _, holds, stays⟩ := Shelf.keeps_of_openNew opened usable low high uses
  obtain ⟨rfl, logged⟩ := stays.told low told
  intro before after e
  have usable' : after.place.trouble? = none := by
    change (before.record now expression result timestamp).2.place.trouble? = none
    rw [logged]
    exact stays.usable
  have log : after.log = before.log.record capacity.toNat expression result e.timestamp now :=
    congrArg Store.log logged
  have entries : after.log.entries = (Log.insert e before.log.entries).take capacity.toNat := by
    rw [log, Log.record, atMost, if_neg (by omega), Int.toNat_natCast]
  have short : before.log.entries.length ≤ capacity.toNat := by
    rw [holds.retains.entries]
    exact List.length_take_le _ _
  obtain ⟨gone, perm, one, full, older⟩ := Log.record_spares holds.retains.descending short e
  rw [← entries] at perm full older
  refine ⟨_, _, gone, ?_, ?_, perm, one, full, older, ?_⟩
  · rw [Store.recent_of_usable stays.usable, if_pos (by decide)]
    rfl
  · rw [Store.recent_of_usable usable', if_pos (by decide)]
    rfl
  · intro number
    have storable : isStorable (e.id : Int) = true := by
      change e.id < 2 ^ 63 at number
      exact isStorable_iff.mpr (by omega)
    rw [Store.get_of_usable usable', if_pos storable, log]
    exact congrArg Except.ok (holds.retains.find?_record expression result e.timestamp now)

/-- A new entry between the two that are there, of which the older one goes. -/
theorem get_recorded_between :
    let s := (pair.after "h.db" 2 jumbled).store
    (s.record ⟨0⟩ "3 - 1" "2" (some 2500)).1 = .ok 4 ∧
      (s.record ⟨0⟩ "3 - 1" "2" (some 2500)).2.get 4 =
        .ok (some ⟨4, "3 - 1", "2", 2500, ⟨0⟩⟩) := by
  have opened : Shelf.openNew "h.db" 2 = .ok pair := by decide +kernel
  have usable : pair.store.place.trouble? = none := rfl
  have told : ((pair.after "h.db" 2 jumbled).store.record ⟨0⟩ "3 - 1" "2" (some 2500)).1 =
      .ok 4 := by decide +kernel
  have held : (pair.after "h.db" 2 jumbled).store.recent (some (-1)) =
      .ok [⟨1, "1 + 1", "2", 3000, ⟨0⟩⟩, ⟨3, "2 * 2", "4", 2000, ⟨0⟩⟩] := by decide +kernel
  obtain ⟨kept, left, gone, before, -, -, -, -, -, found⟩ :=
    get_recorded opened usable (by decide) (by decide) told
  obtain rfl := Except.ok.inj (before.symm.trans held)
  exact ⟨told, found (by decide)⟩

/-- A new entry older than the two that are there goes at once, and its number tells nothing. -/
theorem not_get_recorded :
    Shelf.openNew "h.db" 2 = .ok pair ∧
      let s := (pair.after "h.db" 2 [.record ⟨0⟩ "1 + 1" "2" (some 3000),
        .record ⟨0⟩ "2 * 2" "4" (some 2000)]).store
      (s.record ⟨0⟩ "3 - 3" "0" (some 1000)).1 = .ok 3 ∧
        (s.record ⟨0⟩ "3 - 3" "0" (some 1000)).2.get 3 = .ok none := by
  decide +kernel

end DeskCalculator.History
