import CloudTerminal.Error

/-!
Directories: entries with unique names, kept in the order in which they were added. Names are compared
character by character. The main statements describe each operation by the entries before, at and after
the name it concerns (`split?_eq_some_iff`), and say that adding and removing keep the names distinct.
-/

namespace CloudTerminal

/-- Entries that carry a name, with the word for their kind in messages. -/
class Named (α : Type) where
  label : String
  name : α → String

/-- `Collection`: named entries in the order of their arrival. -/
structure Directory (α : Type) where
  toList : List α := []

namespace Directory

variable {α β : Type} [Named α]

/-- A directory without entries. -/
def empty : Directory α := {}

/-- No two entries share a name. -/
def Distinct (d : Directory α) : Prop := (d.toList.map Named.name).Nodup

/-- `Collection::get`: the entry of the given name. -/
def get? (d : Directory α) (name : String) : Option α := d.toList.find? (Named.name · == name)

/-- The entry of the given name, which has to be there. -/
def find (d : Directory α) (name : String) : Except Error α :=
  match d.get? name with
  | none => .error (.notFound (Named.label α) name)
  | some entry => .ok entry

/-- `Collection::contains`: whether an entry has the given name. -/
def contains (d : Directory α) (name : String) : Bool := (d.get? name).isSome

/-- `Collection::list_where`: the entries that satisfy a condition, in order. -/
def filter (d : Directory α) (p : α → Bool) : List α := d.toList.filter p

/-- `Collection::len`: the number of entries. -/
def size (d : Directory α) : Nat := d.toList.length

/-- `Collection::is_empty`: whether there are no entries. -/
def isEmpty (d : Directory α) : Bool := d.toList.isEmpty

/-- The entries before the first one of the given name, that entry, and those after it. -/
def split? (d : Directory α) (name : String) : Option (List α × α × List α) :=
  match d.toList.dropWhile (fun entry => Named.name entry != name) with
  | [] => none
  | entry :: after => some (d.toList.takeWhile (fun entry => Named.name entry != name), entry, after)

/-- `Collection::add`: appends an entry whose name is not taken. -/
def add (d : Directory α) (entry : α) : Except Error (Directory α) :=
  if d.contains (Named.name entry) then .error (.duplicateName (Named.label α) (Named.name entry))
  else .ok ⟨d.toList ++ [entry]⟩

/-- `Collection::remove`: takes out the entry of the given name. -/
def remove (d : Directory α) (name : String) : Except Error (α × Directory α) :=
  match d.split? name with
  | none => .error (.notFound (Named.label α) name)
  | some (before, entry, after) => .ok (entry, ⟨before ++ after⟩)

/-- `Collection::update`: replaces the entry of the given name by what `change` makes of it, and passes on
the result of the change. A change may refuse, and then nothing is replaced. -/
def update (d : Directory α) (name : String) (change : α → Except Error (β × α)) :
    Except Error (β × Directory α) :=
  match d.split? name with
  | none => .error (.notFound (Named.label α) name)
  | some (before, entry, after) =>
    match change entry with
    | .error e => .error e
    | .ok (result, changed) => .ok (result, ⟨before ++ changed :: after⟩)

theorem split?_eq_some_iff {d : Directory α} {name : String} {before after : List α} {entry : α} :
    d.split? name = some (before, entry, after) ↔
      d.toList = before ++ entry :: after ∧ Named.name entry = name ∧
        ∀ other ∈ before, Named.name other ≠ name := by
  obtain ⟨entries⟩ := d
  simp only [split?]
  induction entries generalizing before with
  | nil => simp
  | cons head tail ih =>
    by_cases same : Named.name head = name
    · have keep : (Named.name head != name) = false := by simpa using same
      simp only [List.dropWhile_cons, List.takeWhile_cons, keep, Bool.false_eq_true, if_false,
        Option.some.injEq, Prod.mk.injEq]
      constructor
      · rintro ⟨rfl, rfl, rfl⟩
        exact ⟨rfl, same, by simp⟩
      · rintro ⟨list, named, clear⟩
        cases before with
        | nil => simpa using list
        | cons b bs =>
          simp only [List.cons_append, List.cons.injEq] at list
          exact absurd (list.1 ▸ same) (clear b List.mem_cons_self)
    · have skip : (Named.name head != name) = true := by simpa using same
      simp only [List.dropWhile_cons, List.takeWhile_cons, skip, if_true]
      constructor
      · intro found
        split at found
        · cases found
        · rename_i entry' after' rest
          simp only [Option.some.injEq, Prod.mk.injEq] at found
          obtain ⟨rfl, rfl, rfl⟩ := found
          have inner := (@ih (tail.takeWhile fun entry => Named.name entry != name)).1
            (by rw [rest])
          refine ⟨congrArg (head :: ·) inner.1, inner.2.1, ?_⟩
          intro other member
          rcases List.mem_cons.1 member with rfl | member
          · exact same
          · exact inner.2.2 other member
      · rintro ⟨list, named, clear⟩
        cases before with
        | nil =>
          simp only [List.nil_append, List.cons.injEq] at list
          exact absurd (list.1 ▸ named) same
        | cons b bs =>
          simp only [List.cons_append, List.cons.injEq] at list
          have inner := (@ih bs).2
            ⟨list.2, named, fun other member => clear other (List.mem_cons_of_mem _ member)⟩
          split at inner
          · cases inner
          · rename_i entry' after' rest
            simp only [Option.some.injEq, Prod.mk.injEq] at inner
            simp [inner, list.1]

theorem split?_eq_none_iff {d : Directory α} {name : String} :
    d.split? name = none ↔ ∀ entry ∈ d.toList, Named.name entry ≠ name := by
  have drops : d.split? name = none ↔
      d.toList.dropWhile (fun entry => Named.name entry != name) = [] := by
    unfold split?
    split <;> simp_all
  rw [drops]
  induction d.toList with
  | nil => simp
  | cons head tail ih => by_cases same : Named.name head = name <;> simp [same, ih]

theorem contains_iff {d : Directory α} {name : String} :
    d.contains name = true ↔ ∃ entry ∈ d.toList, Named.name entry = name := by
  simp [contains, get?]

theorem add_eq_ok_iff {d after : Directory α} {entry : α} :
    d.add entry = .ok after ↔
      d.contains (Named.name entry) = false ∧ after.toList = d.toList ++ [entry] := by
  obtain ⟨entries⟩ := after
  unfold add
  split
  · rename_i taken
    simp [taken]
  · rename_i free
    simp [free, eq_comm]

theorem remove_eq_ok_iff {d after : Directory α} {name : String} {entry : α} :
    d.remove name = .ok (entry, after) ↔
      ∃ front back, d.split? name = some (front, entry, back) ∧ after.toList = front ++ back := by
  obtain ⟨entries⟩ := after
  unfold remove
  cases d.split? name with
  | none => simp
  | some found =>
    obtain ⟨front, found, back⟩ := found
    simp only [Except.ok.injEq, Prod.mk.injEq, Directory.mk.injEq, Option.some.injEq]
    constructor
    · rintro ⟨rfl, rfl⟩
      exact ⟨front, back, ⟨rfl, rfl, rfl⟩, rfl⟩
    · rintro ⟨_, _, ⟨rfl, rfl, rfl⟩, rfl⟩
      exact ⟨rfl, rfl⟩

theorem update_eq_ok_iff {d after : Directory α} {name : String}
    {change : α → Except Error (β × α)} {result : β} :
    d.update name change = .ok (result, after) ↔
      ∃ front entry back changed, d.split? name = some (front, entry, back) ∧
        change entry = .ok (result, changed) ∧ after.toList = front ++ changed :: back := by
  obtain ⟨entries⟩ := after
  unfold update
  cases d.split? name with
  | none => simp
  | some found =>
    obtain ⟨front, entry, back⟩ := found
    constructor
    · intro updated
      cases made : change entry with
      | error e => simp [made] at updated
      | ok given =>
        simp only [made, Except.ok.injEq, Prod.mk.injEq, Directory.mk.injEq] at updated
        obtain ⟨rfl, rfl⟩ := updated
        exact ⟨front, entry, back, given.2, rfl, made, rfl⟩
    · rintro ⟨_, _, _, changed, same, made, list⟩
      obtain ⟨rfl, rfl, rfl⟩ : front = _ ∧ entry = _ ∧ back = _ := by simpa using same
      cases list
      simp [made]

theorem distinct_add {d after : Directory α} {entry : α} (distinct : d.Distinct)
    (added : d.add entry = .ok after) : after.Distinct := by
  obtain ⟨free, list⟩ := add_eq_ok_iff.1 added
  have absent : ¬∃ other ∈ d.toList, Named.name other = Named.name entry := by
    rw [← contains_iff, free]
    exact Bool.false_ne_true
  unfold Distinct
  rw [list, List.map_append, List.nodup_append]
  refine ⟨distinct, by simp, ?_⟩
  rintro name before _ last rfl
  obtain ⟨other, member, same⟩ := List.mem_map.1 before
  obtain rfl := List.mem_singleton.1 last
  exact absent ⟨other, member, same⟩

theorem distinct_remove {d after : Directory α} {name : String} {entry : α} (distinct : d.Distinct)
    (removed : d.remove name = .ok (entry, after)) : after.Distinct := by
  obtain ⟨front, back, found, list⟩ := remove_eq_ok_iff.1 removed
  have before := (split?_eq_some_iff.1 found).1
  unfold Distinct at distinct ⊢
  rw [before] at distinct
  rw [list]
  exact distinct.sublist ((List.sublist_cons_self entry back).append_left front |>.map Named.name)

end Directory

end CloudTerminal
