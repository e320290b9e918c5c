import DeskCalculator.History.Shelf

/-!
# A store opened again

A new store that can be used is found again under its address, with what has been recorded
(`Shelf.Stands.reopen`). Its own file is now there when the address is followed, which at
most blocks the way; a store in whose way it stands is of no use from the first.
-/

namespace DeskCalculator.History
open Clock Text

variable {folders : Folders}

theorem canStep_congr {files files' : List Bytes} (h : ∀ f, f ∈ files ↔ f ∈ files') (way : Way)
    (part : Bytes) : canStep folders files way part = canStep folders files' way part := by
  unfold canStep
  simp only [h, List.contains_eq_mem]

theorem walk_congr {files files' : List Bytes} (h : ∀ f, f ∈ files ↔ f ∈ files') (way : Way)
    (parts : List Bytes) : walk folders files way parts = walk folders files' way parts := by
  induction parts generalizing way with
  | nil => rfl
  | cons part rest ih =>
    unfold walk
    rw [canStep_congr h]
    simp only [ih]

theorem arrives_congr {files files' : List Bytes} (h : ∀ f, f ∈ files ↔ f ∈ files') (way : Way)
    (parts : List Bytes) : arrives folders files way parts = arrives folders files' way parts := by
  induction parts generalizing way with
  | nil => rfl
  | cons part rest ih =>
    unfold arrives
    simp only [ih, h, List.contains_eq_mem]

theorem target_congr {files files' : List Bytes} (h : ∀ f, f ∈ files ↔ f ∈ files') (a : Address) :
    target folders files a = target folders files' a := by
  have led : leadsSomewhere folders files = leadsSomewhere folders files' := by
    funext path
    unfold leadsSomewhere
    simp only [arrives_congr h]
  unfold target follow
  simp only [led, walk_congr h]

/-- Fewer files are in the way. -/
theorem canStep_of_nil {files : List Bytes} {way : Way} {part : Bytes}
    (h : canStep folders files way part = true) : canStep folders [] way part = true := by
  unfold canStep at h ⊢
  split at h <;> simp_all

theorem walk_of_nil {files : List Bytes} {way found : Way} {parts : List Bytes}
    (h : walk folders files way parts = some found) : walk folders [] way parts = some found := by
  induction parts generalizing way with
  | nil => exact h
  | cons part rest ih =>
    unfold walk at h ⊢
    split
    · rename_i stays
      rw [if_pos stays] at h
      exact ih h
    · rename_i moves
      rw [if_neg moves] at h
      split
      · rename_i rises
        rw [if_pos rises] at h
        exact ih h
      · rename_i falls
        rw [if_neg falls] at h
        split at h
        · rename_i steps
          rw [if_pos (canStep_of_nil steps)]
          exact ih h
        · cases h

theorem follow_of_nil {files : List Bytes} {path : Bytes} {way : Way}
    (h : follow folders files path = some way) : follow folders [] path = some way := by
  unfold follow at h ⊢
  dsimp only at h ⊢
  split at h
  · rename_i led
    rw [walk_of_nil led]
    exact h
  · cases h

/-- Where an address leads without any files it leads with some, unless one blocks the way. -/
theorem target_of_nil {files : List Bytes} {a : Address} {name : Bytes} {t : Target}
    (free : target folders [] a = .ok (.file name)) (h : target folders files a = .ok t) :
    t = .file name := by
  unfold target at free h
  cases access : a.access with
  | error trouble => rw [access] at h; cases h
  | ok access' =>
    cases system : a.system with
    | error trouble => rw [access, system] at h; cases h
    | ok system' =>
      simp only [access, system, bind, Except.bind] at free h
      split at free
      · cases free
      · rename_i kept
        rw [if_neg kept] at h
        cases led : follow folders files a.path with
        | none => rw [led] at h; cases h
        | some way =>
          rw [follow_of_nil led] at free
          rw [led] at h
          dsimp only at free h
          split at free
          · cases free
          · split at h
            · cases h
            · split at free
              · cases free
              · rename_i inside
                rw [if_neg inside] at h
                split at free
                · rename_i under
                  rw [if_pos under] at h
                  cases free
                  cases h
                  rfl
                · cases free

/-- An address that leads to a file of its own, in which a store is made and found again. -/
structure Address.Leads (folders : Folders) (a : Address) (name : Bytes) : Prop where
  access : a.access = .ok .create
  changing : a.immutable = false
  system : ∃ system, a.system = .ok system
  file : target folders [name] a = .ok (.file name)

theorem append_ne_self {name suffix : Bytes} (h : suffix ≠ []) : name ++ suffix ≠ name := by
  intro same
  exact h (List.append_right_eq_self.mp same)

theorem rollback_ne (name : Bytes) : rollback name ≠ name := append_ne_self (by decide)

theorem writeAhead_ne (name : Bytes) : writeAhead name ≠ name := append_ne_self (by decide)

/-- A store is made where nothing is only to be read. -/
theorem findFile_new {a : Address} {access : Access} {system : System} {name : Bytes}
    {found : Finding} (h : Place.findFile ⟨folders, [], []⟩ a access system name = .ok found) :
    access = .create ∧ a.immutable = false ∧ found = ⟨.named name, false, [rollback name]⟩ := by
  unfold Place.findFile at h
  rw [if_neg (by simp)] at h
  by_cases created : access = .create
  · rw [if_neg (by simp [created])] at h
    cases making : Place.making? a access system name with
    | some trouble => rw [making] at h; cases h
    | none =>
      rw [making] at h
      refine ⟨created, ?_, ?_⟩
      · cases immutable : a.immutable with
        | false => rfl
        | true =>
          unfold Place.making? at making
          split at making
          · cases making
          · rw [if_pos (by simp [immutable])] at making
            cases making
      · cases h
        simp [Place.lost]
  · rw [if_pos (by simp [created])] at h
    cases h

/-- An address at which a store is made that can then be used leads to it. -/
theorem leads_of_find {a : Address} {found : Finding}
    (h : Place.find ⟨folders, [], []⟩ a = .ok found) {name : Bytes}
    (usable : found.place.amid folders found.place.name?.toList a = .named name) :
    a.Leads folders name ∧ found = ⟨.named name, false, [rollback name]⟩ := by
  unfold Place.find at h
  cases access : a.access with
  | error trouble => rw [access] at h; cases h
  | ok access' =>
    cases system : a.system with
    | error trouble => rw [access, system] at h; cases h
    | ok system' =>
      cases led : target folders [] a with
      | error trouble => rw [access, system, Names.all, List.append_nil, led] at h; cases h
      | ok t =>
        rw [access, system, Names.all, List.append_nil, led] at h
        cases t with
        | volatile =>
          have volatile : found.place = .volatile := by
            change Place.findVolatile a access' = .ok found at h
            unfold Place.findVolatile at h
            dsimp only at h
            split at h
            · cases h
            · cases h
              rfl
          rw [volatile] at usable
          cases usable
        | directory => cases h
        | file name' =>
          obtain ⟨created, changing, rfl⟩ := findFile_new h
          simp only [Place.name?, Option.toList_some, Place.amid] at usable
          cases there : target folders [name'] a with
          | error trouble => rw [there] at usable; cases usable
          | ok t =>
            rw [there] at usable
            cases usable
            rw [target_of_nil led there] at there
            exact ⟨⟨created ▸ access, changing, ⟨system', system⟩, there⟩, rfl⟩

/-- With its own store the only one there, nothing is in the way and nothing is lost. -/
theorem Address.Leads.find {a : Address} {name : Bytes} (h : a.Leads folders name)
    {stores : List Bytes} (here : name ∈ stores) (own : ∀ f ∈ stores, f = name) :
    Place.find ⟨folders, stores, []⟩ a = .ok ⟨.named name, false, []⟩ := by
  have only (f : Bytes) : f ∈ stores ↔ f ∈ [name] := by
    rw [List.mem_singleton]
    constructor
    · exact own f
    · rintro rfl
      exact here
  have unfinished : rollback name ∉ stores := fun there => rollback_ne name (own _ there)
  have unwritten : writeAhead name ∉ stores := fun there => writeAhead_ne name (own _ there)
  obtain ⟨system, kind⟩ := h.system
  have led : target folders stores a = .ok (.file name) := by rw [target_congr only, h.file]
  have opens : Place.opening? stores a .create system name = none := by
    simp [Place.opening?, h.changing, unwritten]
  have nothing : Place.lost stores system name = [] := by
    simp [Place.lost, Place.playsBack, here, unfinished, unwritten]
  rw [Place.find, h.access, kind, Names.all, List.append_nil, led]
  change Place.findFile ⟨folders, stores, []⟩ a .create system name = _
  rw [Place.findFile, if_pos (by simpa using here), opens]
  simp [h.changing, nothing]

namespace Shelf

/-- The store of an address stands open on a shelf with nothing but its own file. -/
structure Stands (s : Shelf) (a : Address) (name : Bytes) (capacity : Int) : Prop where
  address : s.store.address = a
  place : s.store.place = .named name
  writable : s.store.readOnly = false
  capacity : s.store.capacity = capacity
  leads : a.Leads s.closed.folders name
  bare : s.closed.bare = []
  own : ∀ log ∈ s.closed.logs, log.1 = name

variable {s : Shelf} {a : Address} {name : Bytes} {capacity : Int}

theorem stands_of_openNew {address : String} (opened : openNew address capacity folders = .ok s)
    (usable : s.store.place.trouble? = none) :
    s.store.log = .empty ∧
      ∃ a name, Address.ofText? address = some a ∧ s.Stands a name capacity := by
  unfold openNew Store.openNew Store.openIn at opened
  cases text : Address.ofText? address with
  | none => rw [text] at opened; cases opened
  | some a =>
    cases find : Place.find (Directory.empty folders).names a with
    | error trouble => rw [text] at opened; dsimp only at opened; rw [find] at opened; cases opened
    | ok found =>
      rw [text] at opened
      dsimp only at opened
      rw [find] at opened
      cases opened
      have place : found.place.amid folders found.place.name?.toList a =
          ((⟨a, found.place, found.readOnly, capacity,
            (Directory.empty folders).logAt found.place⟩ : Store).within
              ((Directory.empty folders).without found.lost)).place := by
        simp [Store.within, Directory.empty, Directory.without, Directory.names, Names.all]
      change Place.trouble? (Store.within _ _).place = none at usable
      rw [← place] at usable
      cases stays : found.place.amid folders found.place.name?.toList a with
      | volatile => rw [stays] at usable; cases usable
      | blocked name trouble => rw [stays] at usable; cases usable
      | named name =>
        obtain ⟨leads, rfl⟩ := leads_of_find find stays
        refine ⟨?_, a, name, rfl, rfl, place.symm.trans stays, rfl, rfl, leads, rfl, ?_⟩
        · simp [Store.within, Directory.empty, Directory.logAt]
        · intro log none
          cases none

/-- **A store that is opened again is the same store.** Its file is closed with it. -/
theorem Stands.reopen (h : s.Stands a name capacity) {address : String}
    (text : Address.ofText? address = some a) :
    s.reopen address capacity =
      (.ok (), ⟨s.store, { s.closed with logs := (name, s.store.log) :: s.closed.logs }⟩) := by
  obtain ⟨⟨address', place, readOnly, capacity', log⟩, ⟨folders, logs, bare⟩⟩ := s
  obtain ⟨rfl, rfl, rfl, rfl, leads, rfl, own⟩ := h
  have directory : (⟨⟨address', .named name, false, capacity', log⟩, ⟨folders, logs, []⟩⟩ :
      Shelf).directory = ⟨folders, (name, log) :: logs, []⟩ := rfl
  have names : (⟨folders, (name, log) :: logs, []⟩ : Directory).names =
      ⟨folders, name :: logs.map Prod.fst, []⟩ := rfl
  have own' (f : Bytes) (there : f ∈ name :: logs.map Prod.fst) : f = name := by
    rcases List.mem_cons.mp there with rfl | there
    · rfl
    · obtain ⟨log, closed, rfl⟩ := List.mem_map.mp there
      exact own log closed
  have only (f : Bytes) : f ∈ name :: name :: logs.map Prod.fst ↔ f ∈ [name] := by
    rw [List.mem_singleton, List.mem_cons]
    constructor
    · rintro (rfl | there)
      · rfl
      · exact own' f there
    · exact .inl
  have found := leads.find List.mem_cons_self own'
  rw [Shelf.reopen, text]
  simp only [directory, Store.openIn, names, found]
  simp [Directory.without, Directory.covered, Directory.logAt, Store.within, Place.name?,
    Directory.names, Names.all, Place.amid, target_congr only, leads.file, List.filter_eq_self.mpr]

end Shelf

end DeskCalculator.History
