import DeskCalculator.History.Store

/-! Stores that can be closed and opened again under their addresses. -/
namespace DeskCalculator.History

structure Shelf where
  store : Store
  /-- The files beside the one of the open store, those used last first. -/
  closed : Directory
  deriving DecidableEq

namespace Shelf

def openNew (address : String) (capacity : Int) (folders : Folders := .scratch) :
    Except Fault Shelf := do
  return ⟨← Store.openNew address capacity folders, .empty folders⟩

def directory (s : Shelf) : Directory :=
  match s.store.place.name? with
  | some name => { s.closed with logs := (name, s.store.log) :: s.closed.logs }
  | none => s.closed

/-- A store that cannot be opened leaves the old one open, but the bare file that
may be left can block the way to it. -/
def reopen (s : Shelf) (address : String) (capacity : Int) : Except Fault Unit × Shelf :=
  match Address.ofText? address with
  | none => (.error .zeroInAddress, s)
  | some a =>
    match Store.openIn s.directory a capacity with
    | .ok (store, closed) => (.ok (), ⟨store, closed⟩)
    | .error fault =>
      let leftover := (Place.leftover? s.directory.names a).toList
      let closed := { s.closed with bare := leftover ++ s.closed.bare }
      (.error fault, ⟨s.store.within closed, closed⟩)

end Shelf
end DeskCalculator.History
