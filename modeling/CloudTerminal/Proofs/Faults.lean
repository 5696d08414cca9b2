import CloudTerminal.Command
import CloudTerminal.Proofs.Directory
import CloudTerminal.Proofs.TableLayout

/-!
Computations that can go wrong. Places in lists, numbers of a fixed width, divisors and paddings have their
limits, and a computation that goes beyond one of them ends in a `Fault`. The operations here are those of the
commands with each of these limits looked at. What they have in common is shown for all of them: arguments are
found where they have been counted, an entry that is taken out has a place, and tables whose cells are not too
long are laid out as `Text.renderTable` does it.
-/

namespace CloudTerminal

/-- Why a computation cannot go on. -/
inductive Fault where
  /-- There is nothing at a place. -/
  | outside
  /-- A number does not fit into its width. -/
  | overflow
  /-- A number would be less than zero. -/
  | underflow
  /-- A number is divided by zero. -/
  | divisor
  /-- A text is padded to a length that cannot be asked for. -/
  | padding
  deriving DecidableEq

/-- A computation in which every limit is looked at. -/
abbrev Guarded (α : Type) := Except Fault α

namespace Guarded

variable {α β : Type}

/-- The element at a place. -/
def item (items : List α) (place : Nat) : Guarded α :=
  if inside : place < items.length then .ok items[place] else .error .outside

/-- The elements from one place up to another. -/
def piece (items : List α) (start stop : Nat) : Guarded (List α) :=
  if start ≤ stop ∧ stop ≤ items.length then .ok ((items.drop start).take (stop - start)) else .error .outside

/-- The sum of numbers of which there are `bound`. -/
def sum (bound a b : Nat) : Guarded Nat := if a + b < bound then .ok (a + b) else .error .overflow

/-- The product of numbers of which there are `bound`. -/
def product (bound a b : Nat) : Guarded Nat := if a * b < bound then .ok (a * b) else .error .overflow

/-- The difference of numbers without a sign. -/
def difference (a b : Nat) : Guarded Nat := if b ≤ a then .ok (a - b) else .error .underflow

/-- A number that is divided by. -/
def divisor (n : Nat) : Guarded Nat := if n = 0 then .error .divisor else .ok n

def quotient (a b : Nat) : Guarded Nat := (divisor b).map fun b => a / b

def remainder (a b : Nat) : Guarded Nat := (divisor b).map fun b => a % b

/-- The largest length that a text can be padded to. -/
def widest : Nat := 65535

def padded (width : Nat) (cell : List Char) : Guarded (List Char) :=
  if width ≤ widest then .ok (Text.padTo width cell) else .error .padding

section Limits

variable {items : List α} {place start stop bound a b : Nat}

/-- A computation without a fault goes on with its result. -/
@[simp] theorem go_on (x : α) (next : α → Guarded β) : ((.ok x : Guarded α) >>= next) = next x := rfl

@[simp] theorem finish (x : α) : (pure x : Guarded α) = .ok x := rfl

theorem item_inside (inside : place < items.length) : item items place = .ok items[place] := dif_pos inside

theorem piece_inside (ordered : start ≤ stop) (inside : stop ≤ items.length) :
    piece items start stop = .ok ((items.drop start).take (stop - start)) := if_pos ⟨ordered, inside⟩

theorem sum_below (below : a + b < bound) : sum bound a b = .ok (a + b) := if_pos below

theorem product_below (below : a * b < bound) : product bound a b = .ok (a * b) := if_pos below

theorem difference_of_smaller (smaller : b ≤ a) : difference a b = .ok (a - b) := if_pos smaller

theorem divisor_of_positive (positive : 0 < b) : divisor b = .ok b := if_neg (Nat.ne_of_gt positive)

theorem quotient_by_positive (positive : 0 < b) : quotient a b = .ok (a / b) := by
  rw [quotient, divisor_of_positive positive]
  rfl

theorem remainder_by_positive (positive : 0 < b) : remainder a b = .ok (a % b) := by
  rw [remainder, divisor_of_positive positive]
  rfl

theorem padded_within {width : Nat} {cell : List Char} (within : width ≤ widest) :
    padded width cell = .ok (Text.padTo width cell) := if_pos within

/-- If no element is at fault, the list is not. -/
theorem mapM_of_ok {compute : α → Guarded β} {result : α → β}
    (faultless : ∀ x ∈ items, compute x = .ok (result x)) :
    items.mapM compute = .ok (items.map result) := by
  induction items with
  | nil => rfl
  | cons x rest ih =>
    obtain ⟨first, others⟩ := List.forall_mem_cons.mp faultless
    rw [List.mapM_cons, first, go_on, ih others, go_on, List.map_cons, finish]

end Limits

section Arguments

variable (manual : Manual) (arguments : List String)

/-- Looks for arguments after they have been counted. -/
def counted (low high : Nat) (found : Guarded α) : Guarded (Except Error α) :=
  match manual.between low high arguments with
  | .error e => .ok (.error e)
  | .ok _ => found.map .ok

def oneArgument : Guarded (Except Error String) := counted manual arguments 1 1 (item arguments 0)

def twoArguments : Guarded (Except Error (String × String)) :=
  counted manual arguments 2 2 do return (← item arguments 0, ← item arguments 1)

def oneArgumentOrTwo : Guarded (Except Error (String × Option String)) :=
  counted manual arguments 1 2 do return (← item arguments 0, arguments[1]?)

/-- If the count of the arguments fits, what is computed from them counts. -/
theorem counted_of_fitting {low high : Nat} {found : Guarded α} {x : α}
    (fits : low ≤ arguments.length ∧ arguments.length ≤ high) (faultless : found = .ok x) :
    counted manual arguments low high found = .ok (.ok x) := by
  rw [counted, Manual.between, if_pos fits, faultless]
  rfl

theorem counted_of_others {low high : Nat} {found : Guarded α}
    (others : ¬(low ≤ arguments.length ∧ arguments.length ≤ high)) :
    counted manual arguments low high found = .ok (.error (manual.refusal low arguments)) := by
  rw [counted, Manual.between, if_neg others]

theorem one_argument_is_found : oneArgument manual arguments = .ok (manual.oneArgument arguments) := by
  rcases arguments with _ | ⟨first, _ | ⟨second, rest⟩⟩
  · exact counted_of_others manual _ (by simp)
  · exact counted_of_fitting manual _ (by simp) rfl
  · exact counted_of_others manual _ (by simp)

theorem two_arguments_are_found : twoArguments manual arguments = .ok (manual.twoArguments arguments) := by
  rcases arguments with _ | ⟨first, _ | ⟨second, _ | ⟨third, rest⟩⟩⟩
  · exact counted_of_others manual _ (by simp)
  · exact counted_of_others manual _ (by simp)
  · exact counted_of_fitting manual _ (by simp) rfl
  · exact counted_of_others manual _ (by simp)

theorem one_argument_or_two_are_found :
    oneArgumentOrTwo manual arguments = .ok (manual.oneArgumentOrTwo arguments) := by
  rcases arguments with _ | ⟨first, _ | ⟨second, _ | ⟨third, rest⟩⟩⟩
  · exact counted_of_others manual _ (by simp)
  · exact counted_of_fitting manual _ (by simp) rfl
  · exact counted_of_fitting manual _ (by simp) rfl
  · exact counted_of_others manual _ (by simp)

end Arguments

section Directories

variable [Named α]

/-- Takes out the entry at the place of a name. -/
def remove (d : Directory α) (name : String) : Guarded (Except Error (α × Directory α)) :=
  match d.toList.findIdx? (Named.name · == name) with
  | none => .ok (.error (.notFound (Named.label α) name))
  | some place => (item d.toList place).map fun entry => .ok (entry, ⟨d.toList.eraseIdx place⟩)

/-- An entry that is taken out has a place. -/
theorem removed_entry_has_a_place (d : Directory α) (name : String) : remove d name = .ok (d.remove name) := by
  unfold remove Directory.remove
  cases found : d.split? name with
  | none =>
    have absent : d.toList.findIdx? (Named.name · == name) = none := by
      simpa using Directory.split?_eq_none_iff.mp found
    rw [absent]
  | some parts =>
    obtain ⟨front, entry, back⟩ := parts
    obtain ⟨whole, named, others⟩ := Directory.split?_eq_some_iff.mp found
    have place : d.toList.findIdx? (Named.name · == name) = some front.length := by
      have nowhere : front.findIdx? (Named.name · == name) = none := by simpa using others
      rw [whole, List.findIdx?_append, nowhere]
      simp [List.findIdx?_cons, named]
    have inside : front.length < d.toList.length := by simp [whole]
    have rest : (front ++ entry :: back).eraseIdx front.length = front ++ back := by
      rw [List.eraseIdx_append_of_length_le (Nat.le_refl _), Nat.sub_self, List.eraseIdx_cons_zero]
    rw [place]
    simp only [item_inside inside]
    simp [whole, rest, Except.map]

end Directories

section Tables

variable {table : List (List (List Char))} {row : List (List Char)}

/-- One line of a table, every cell being padded to the width at its place. -/
def tableLine (widths : List Nat) (row : List (List Char)) : Guarded (List Char) := do
  let cells ← row.zipIdx.mapM fun cell => do padded (← item widths cell.2) cell.1
  return Text.trimEnd Text.isBlank (Text.columnGap.intercalate cells)

/-- A table as text. Its lines are counted before they are made. -/
def renderTable (headers : List String) (rows : List (List String)) : Guarded String := do
  let _ ← sum USize.size rows.length 1
  let table := Text.tableOf headers rows
  let lines ← table.mapM (tableLine (Text.columnWidths table))
  return "\n".intercalate (lines.map String.ofList)

/-- No column is wider than the longest cell. -/
theorem width_within {limit column : Nat} (short : ∀ row ∈ table, ∀ cell ∈ row, cell.length ≤ limit) :
    Text.columnWidth table column ≤ limit := by
  induction table with
  | nil => exact Nat.zero_le limit
  | cons first rest ih =>
    obtain ⟨cells, others⟩ := List.forall_mem_cons.mp short
    rw [Text.width_with_one_more_row]
    refine Nat.max_le.mpr ⟨?_, ih others⟩
    cases held : first[column]? with
    | none => exact Nat.zero_le limit
    | some cell => exact cells cell (List.mem_of_getElem? held)

/-- A line of a table is laid out without a fault, as no cell has to be filled up beyond the bound. -/
theorem table_line_is_laid_out (short : ∀ row ∈ table, ∀ cell ∈ row, cell.length ≤ widest) (member : row ∈ table) :
    tableLine (Text.columnWidths table) row = .ok (Text.tableLine (Text.columnWidths table) row) := by
  have faultless : ∀ cell ∈ row.zipIdx,
      (do padded (← item (Text.columnWidths table) cell.2) cell.1 : Guarded (List Char)) =
        .ok (Text.padTo (Text.columnWidth table cell.2) cell.1) := by
    intro cell member'
    have held : row[cell.2]? = some cell.1 := by simpa using List.mem_zipIdx_iff_getElem?.mp member'
    obtain ⟨inside, width⟩ := List.getElem?_eq_some_iff.mp
      (Text.column_has_its_width member (List.getElem?_eq_some_iff.mp held).1)
    rw [item_inside inside, go_on, width, padded_within (width_within short)]
  have cells : row.zipIdx.map (fun cell => Text.padTo (Text.columnWidth table cell.2) cell.1) =
      List.zipWith Text.padTo (Text.columnWidths table) row := by
    refine List.ext_getElem? fun column => ?_
    rw [List.getElem?_map, List.getElem?_zipIdx]
    cases held : row[column]? with
    | none =>
      have behind := Text.length_of_padded_row member ▸ List.getElem?_eq_none_iff.mp held
      exact (List.getElem?_eq_none_iff.mpr behind).symm
    | some cell => simp [Text.padded_cell member held]
  rw [tableLine, mapM_of_ok faultless, go_on, cells]
  rfl

/-- A table with cells that can be padded to and with not too many rows is laid out without a fault. -/
theorem table_is_laid_out {headers : List String} {rows : List (List String)} (few : rows.length < UInt32.size - 1)
    (short : ∀ row ∈ headers :: rows, ∀ cell ∈ row, cell.length ≤ widest) :
    renderTable headers rows = .ok (Text.renderTable headers rows) := by
  have wide : 4294967296 ≤ USize.size := USize.le_size
  have counted : sum USize.size rows.length 1 = .ok (rows.length + 1) := sum_below (by
    simp only [UInt32.size] at few
    omega)
  have characters : ∀ row ∈ Text.tableOf headers rows, ∀ cell ∈ row, cell.length ≤ widest := by
    rw [Text.tableOf, List.forall_mem_map]
    intro row member
    rw [List.forall_mem_map]
    exact short row member
  rw [renderTable, counted, go_on]
  dsimp only
  rw [mapM_of_ok fun row member => table_line_is_laid_out characters member]
  rfl

end Tables

end Guarded

end CloudTerminal
