import NamedTypes.Validator

/-! # Cells
A **cell** holds at most one type and is written at most once. `Cell.force` answers with what the
cell holds, and runs a producer only when it holds nothing. The producer may force the same cell
before it ends; what it put there stays, and is the answer. A producer that fails leaves the cell as
it is. -/

namespace NamedTypes

/-- A cell within a state that `m` carries. -/
structure Cell (m : Type → Type) where
  /-- What the cell holds. -/
  read : m (Option Ty)
  /-- Fills the cell. -/
  write : Ty → m Unit

/-- The type that a cell holds, made by `produce` if it holds none. -/
def Cell.force {m : Type → Type} [Monad m] (cell : Cell m) (produce : m Ty) : m Ty := do
  match ← cell.read with
  | some held => return held
  | none =>
    let made ← produce
    match ← cell.read with
    | some held => return held
    | none =>
      cell.write made
      return made

end NamedTypes
