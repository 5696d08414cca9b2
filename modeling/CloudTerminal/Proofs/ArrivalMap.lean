import Mathlib.Data.Finmap
import CloudTerminal.Proofs.Directory

/-!
Directories as finite maps. An `ArrivalMap` says what a directory is about without saying how it is kept: a
finite map from names to entries, each with the number of its arrival. Adding an entry gives it the next number, a
change leaves the number as it is, and removing an entry forgets it, so the numbers tell the order of arrival.
After every sequence of operations the directory answers as the map does, and lists its entries in the order of
their arrival (`directory_is_an_insertion_ordered_map`).
-/

namespace CloudTerminal

namespace Directory

/-- A change of an entry, with a result. It keeps the name of the entry, or it is refused. -/
structure Mutation (α ρ : Type) [Named α] where
  run : α → Except Error (ρ × α)
  keeps_name : ∀ entry result changed, run entry = .ok (result, changed) →
    Named.name changed = Named.name entry

/-- An operation on named entries whose result is of the given type. -/
inductive Operation (α : Type) [Named α] : Type → Type 1 where
  | add (entry : α) : Operation α Unit
  | update {ρ : Type} (name : String) (mutation : Mutation α ρ) : Operation α ρ
  | remove (name : String) : Operation α α

end Directory

open Directory (Mutation Operation)

variable {α ρ : Type} [Named α]

namespace Directory

/-- The result of an operation, and the directory after it. -/
def perform (d : Directory α) : Operation α ρ → Except Error ρ × Directory α
  | .add entry =>
    match d.add entry with
    | .error e => (.error e, d)
    | .ok after => (.ok (), after)
  | .update name mutation =>
    match d.update name mutation.run with
    | .error e => (.error e, d)
    | .ok (result, after) => (.ok result, after)
  | .remove name =>
    match d.remove name with
    | .error e => (.error e, d)
    | .ok (entry, after) => (.ok entry, after)

/-- The directory after some operations, one after the other, from the empty one on. -/
def afterAll (operations : List (Σ ρ, Operation α ρ)) : Directory α :=
  operations.foldl (fun d operation => (d.perform operation.2).2) empty

end Directory

/-- A finite map from names to entries, each with the number of its arrival. -/
structure ArrivalMap (α : Type) where
  entries : Finmap fun _ : String => Nat × α := ∅
  /-- The number of entries that have arrived so far, which is also the number that the next one gets. -/
  arrived : Nat := 0

namespace ArrivalMap

/-- The result of an operation, and the map after it. -/
def perform (map : ArrivalMap α) : Operation α ρ → Except Error ρ × ArrivalMap α
  | .add entry =>
    if Named.name entry ∈ map.entries then
      (.error (.duplicateName (Named.label α) (Named.name entry)), map)
    else
      (.ok (), { entries := map.entries.insert (Named.name entry) (map.arrived, entry),
                 arrived := map.arrived + 1 })
  | .update name mutation =>
    match map.entries.lookup name with
    | none => (.error (.notFound (Named.label α) name), map)
    | some (arrival, entry) =>
      match mutation.run entry with
      | .error e => (.error e, map)
      | .ok (result, changed) =>
        (.ok result, { map with entries := map.entries.insert name (arrival, changed) })
  | .remove name =>
    match map.entries.lookup name with
    | none => (.error (.notFound (Named.label α) name), map)
    | some (_, entry) => (.ok entry, { map with entries := map.entries.erase name })

/-- The map after some operations, one after the other, from the empty one on. -/
def afterAll (operations : List (Σ ρ, Operation α ρ)) : ArrivalMap α :=
  operations.foldl (fun map operation => (map.perform operation.2).2) {}

/-- The list holds the entries of the map that satisfy the condition, each once, in the order of their arrival. -/
def Enumerates (map : ArrivalMap α) (condition : α → Bool) (list : List α) : Prop :=
  ∃ arrivals : List (Nat × α), list = arrivals.map Prod.snd ∧ arrivals.Pairwise (·.1 < ·.1) ∧
    ∀ arrival, arrival ∈ arrivals ↔
      (∃ name, map.entries.lookup name = some arrival) ∧ condition arrival.2 = true

end ArrivalMap

/-- Whatever is asked of the directory is answered as by the map, and its lists are enumerations of the map. -/
structure Directory.Represents (d : Directory α) (map : ArrivalMap α) : Prop where
  distinct : d.Distinct
  result : ∀ {ρ : Type} (operation : Operation α ρ), (d.perform operation).1 = (map.perform operation).1
  add_refused : ∀ entry,
    (d.perform (.add entry)).1 = .error (.duplicateName (Named.label α) (Named.name entry)) ↔
      Named.name entry ∈ map.entries
  /-- An update finds nothing if the name is absent; a mutation may also refuse in these words. -/
  update_finds_nothing : ∀ {ρ : Type} name (mutation : Mutation α ρ),
    (d.perform (.update name mutation)).1 = .error (.notFound (Named.label α) name) ↔
      name ∉ map.entries ∨ ∃ entry, d.get? name = some entry ∧
        mutation.run entry = .error (.notFound (Named.label α) name)
  remove_finds_nothing : ∀ name,
    (d.perform (.remove name)).1 = .error (.notFound (Named.label α) name) ↔ name ∉ map.entries
  unchanged_on_error : ∀ {ρ : Type} (operation : Operation α ρ) e,
    (d.perform operation).1 = .error e → (d.perform operation).2 = d
  get : ∀ name, d.get? name = (map.entries.lookup name).map Prod.snd
  contains : ∀ name, d.contains name = true ↔ name ∈ map.entries
  size : d.size = map.entries.keys.card
  isEmpty : d.isEmpty = true ↔ map.entries = ∅
  list : map.Enumerates (fun _ => true) d.toList
  filter : ∀ condition, map.Enumerates condition (d.filter condition)
  added_at_the_end : ∀ entry, (d.perform (.add entry)).1 = .ok () →
    (d.perform (.add entry)).2.toList = d.toList ++ [entry]
  update_keeps_places : ∀ {ρ : Type} name (mutation : Mutation α ρ),
    (d.perform (.update name mutation)).2.toList.map Named.name = d.toList.map Named.name

/-- The directory holds the entries of the map in the order of the arrivals that are given. -/
structure Agrees (d : Directory α) (map : ArrivalMap α) (arrivals : List (Nat × α)) : Prop where
  list : d.toList = arrivals.map Prod.snd
  distinct : d.Distinct
  ordered : arrivals.Pairwise (·.1 < ·.1)
  counted : ∀ arrival ∈ arrivals, arrival.1 < map.arrived
  looked_up : ∀ name arrival, map.entries.lookup name = some arrival ↔
    arrival ∈ arrivals ∧ Named.name arrival.2 = name

namespace Agrees

variable {d : Directory α} {map : ArrivalMap α} {arrivals : List (Nat × α)} {name : String} {entry : α}

/-- What a directory finds under a name is what the map has there. -/
theorem get (agrees : Agrees d map arrivals) (name : String) :
    d.get? name = (map.entries.lookup name).map Prod.snd := by
  ext entry
  rw [Directory.lookup_finds_exactly_the_member agrees.distinct, agrees.list, List.mem_map,
    Option.map_eq_some_iff]
  constructor
  · rintro ⟨⟨arrival, member, rfl⟩, named⟩
    exact ⟨arrival, (agrees.looked_up name arrival).mpr ⟨member, named⟩, rfl⟩
  · rintro ⟨arrival, found, rfl⟩
    obtain ⟨member, named⟩ := (agrees.looked_up name arrival).mp found
    exact ⟨⟨arrival, member, rfl⟩, named⟩

theorem contains_iff (agrees : Agrees d map arrivals) (name : String) :
    d.contains name = true ↔ name ∈ map.entries := by
  rw [Directory.contains, agrees.get, Option.isSome_map, Finmap.lookup_isSome]

theorem absent (agrees : Agrees d map arrivals) (missing : d.split? name = none) :
    map.entries.lookup name = none := by
  have free : d.contains name = false :=
    Directory.free_iff_no_entry_named.mpr (Directory.split?_eq_none_iff.mp missing)
  rw [Finmap.lookup_eq_none, ← agrees.contains_iff, free]
  exact Bool.false_ne_true

/-- The place of a name cuts the arrivals, too, and no other arrival has the name. -/
theorem place (agrees : Agrees d map arrivals) {front back : List α}
    (found : d.split? name = some (front, entry, back)) :
    ∃ before number behind, arrivals = before ++ (number, entry) :: behind ∧
      front = before.map Prod.snd ∧ back = behind.map Prod.snd ∧
      map.entries.lookup name = some (number, entry) ∧ Named.name entry = name ∧
      ∀ arrival, arrival ∈ before ∨ arrival ∈ behind → Named.name arrival.2 ≠ name := by
  obtain ⟨list, rfl, _⟩ := Directory.split?_eq_some_iff.mp found
  obtain ⟨before_names, behind_names⟩ := Directory.others_are_named_otherwise agrees.distinct list
  rw [agrees.list, List.map_eq_append_iff] at list
  obtain ⟨before, rest, cut, rfl, tail⟩ := list
  obtain ⟨⟨number, _⟩, behind, rfl, rfl, rfl⟩ := List.map_eq_cons_iff.mp tail
  refine ⟨before, number, behind, cut, rfl, rfl, ?_, rfl, ?_⟩
  · exact (agrees.looked_up _ _).mpr ⟨by simp [cut], rfl⟩
  · rintro arrival (earlier | later)
    · exact before_names _ (List.mem_map_of_mem earlier)
    · exact behind_names _ (List.mem_map_of_mem later)

/-- A new entry comes last on both sides, with the number of arrivals so far as its place in time. -/
theorem add (agrees : Agrees d map arrivals) (free : d.contains (Named.name entry) = false) :
    Agrees ⟨d.toList ++ [entry]⟩
      { entries := map.entries.insert (Named.name entry) (map.arrived, entry), arrived := map.arrived + 1 }
      (arrivals ++ [(map.arrived, entry)]) where
  list := by simp [agrees.list]
  distinct := Directory.distinct_add agrees.distinct (Directory.add_of_free entry free)
  ordered := by
    rw [List.pairwise_append]
    refine ⟨agrees.ordered, List.pairwise_singleton _ _, ?_⟩
    intro arrival member last same
    obtain rfl := List.mem_singleton.mp same
    exact agrees.counted arrival member
  counted := by
    intro arrival member
    rcases List.mem_append.mp member with earlier | last
    · exact Nat.lt_succ_of_lt (agrees.counted arrival earlier)
    · obtain rfl := List.mem_singleton.mp last
      exact Nat.lt_succ_self _
  looked_up := by
    intro name arrival
    have fresh : ∀ arrival ∈ arrivals, Named.name arrival.2 ≠ Named.name entry := by
      intro arrival member
      refine Directory.free_iff_no_entry_named.mp free _ ?_
      rw [agrees.list]
      exact List.mem_map_of_mem member
    rw [List.mem_append, List.mem_singleton]
    by_cases same : name = Named.name entry
    · subst same
      rw [Finmap.lookup_insert, Option.some.injEq]
      constructor
      · rintro rfl
        exact ⟨.inr rfl, rfl⟩
      · rintro ⟨earlier | rfl, named⟩
        · exact absurd named (fresh arrival earlier)
        · rfl
    · rw [Finmap.lookup_insert_of_ne _ same, agrees.looked_up]
      constructor
      · rintro ⟨earlier, named⟩
        exact ⟨.inl earlier, named⟩
      · rintro ⟨earlier | rfl, named⟩
        · exact ⟨earlier, named⟩
        · exact absurd named.symm same

/-- The arrival at a place is exchanged for another of the same name and number, or it is taken out. -/
theorem exchange {before behind : List (Nat × α)} {number : Nat} {entries : Finmap fun _ : String => Nat × α}
    (agrees : Agrees d map (before ++ (number, entry) :: behind)) (named : Named.name entry = name)
    (others : ∀ arrival, arrival ∈ before ∨ arrival ∈ behind → Named.name arrival.2 ≠ name)
    (replacement : Option α) (keeps : ∀ changed ∈ replacement, Named.name changed = name)
    (at_the_name : entries.lookup name = replacement.map (number, ·))
    (elsewhere : ∀ other, other ≠ name → entries.lookup other = map.entries.lookup other) :
    Agrees ⟨before.map Prod.snd ++ (replacement.toList ++ behind.map Prod.snd)⟩ { map with entries }
      (before ++ (replacement.toList.map (number, ·) ++ behind)) := by
  -- Names and numbers stay what they were, or one of each goes.
  have names : ((before.map Prod.snd ++ (replacement.toList ++ behind.map Prod.snd)).map Named.name).Sublist
      (d.toList.map (Named.name (α := α))) := by
    rw [agrees.list]
    cases replacement with
    | none => simp
    | some changed => simp [named, keeps changed rfl]
  have numbers : ((before ++ (replacement.toList.map (number, ·) ++ behind)).map Prod.fst).Sublist
      ((before ++ (number, entry) :: behind).map Prod.fst) := by
    cases replacement <;> simp
  have middle : ∀ arrival ∈ replacement.toList.map (number, ·), Named.name arrival.2 = name := by
    intro arrival member
    obtain ⟨changed, present, rfl⟩ := List.mem_map.mp member
    exact keeps changed (Option.mem_toList.mp present)
  refine ⟨?_, agrees.distinct.sublist names, ?_, ?_, ?_⟩
  · simp [Function.comp_def]
  · exact List.pairwise_map.mp ((List.pairwise_map.mpr agrees.ordered).sublist numbers)
  · intro arrival member
    obtain ⟨earlier, present, same⟩ := List.mem_map.mp (numbers.mem (List.mem_map_of_mem member))
    exact same ▸ agrees.counted earlier present
  · intro other arrival
    by_cases same : other = name
    · subst same
      have placed : entries.lookup other = some arrival ↔ arrival ∈ replacement.toList.map (number, ·) := by
        rw [at_the_name]
        cases replacement <;> simp [eq_comm]
      rw [placed, List.mem_append, List.mem_append]
      constructor
      · intro present
        exact ⟨.inr (.inl present), middle arrival present⟩
      · rintro ⟨earlier | present | later, same⟩
        · exact absurd same (others arrival (.inl earlier))
        · exact present
        · exact absurd same (others arrival (.inr later))
    · rw [elsewhere other same, agrees.looked_up, List.mem_append, List.mem_append, List.mem_append,
        List.mem_cons]
      constructor
      · rintro ⟨earlier | rfl | later, other_name⟩
        · exact ⟨.inl earlier, other_name⟩
        · exact absurd (other_name.symm.trans named) same
        · exact ⟨.inr (.inr later), other_name⟩
      · rintro ⟨earlier | present | later, other_name⟩
        · exact ⟨.inl earlier, other_name⟩
        · exact absurd (other_name.symm.trans (middle arrival present)) same
        · exact ⟨.inr (.inr later), other_name⟩

/-- Every operation has the same answer on both sides, and they agree again after it. This is the step of the
simulation, with one case for each operation. -/
theorem perform (agrees : Agrees d map arrivals) (operation : Operation α ρ) :
    (d.perform operation).1 = (map.perform operation).1 ∧
      ∃ arrivals', Agrees (d.perform operation).2 (map.perform operation).2 arrivals' := by
  cases operation with
  | add entry =>
    cases taken : d.contains (Named.name entry) with
    | true =>
      have held := (agrees.contains_iff _).mp taken
      simp only [Directory.perform, Directory.add, taken, ArrivalMap.perform, if_pos held, if_true,
        true_and]
      exact ⟨arrivals, agrees⟩
    | false =>
      have absent : Named.name entry ∉ map.entries := by simp [← agrees.contains_iff, taken]
      simp only [Directory.perform, Directory.add_of_free entry taken, ArrivalMap.perform, if_neg absent,
        true_and]
      exact ⟨_, agrees.add taken⟩
  | update name mutation =>
    cases found : d.split? name with
    | none =>
      simp only [Directory.perform, Directory.update, found, ArrivalMap.perform, agrees.absent found, true_and]
      exact ⟨arrivals, agrees⟩
    | some cut =>
      obtain ⟨front, entry, back⟩ := cut
      obtain ⟨before, number, behind, rfl, rfl, rfl, held, named, others⟩ := agrees.place found
      cases made : mutation.run entry with
      | error e =>
        simp only [Directory.perform, Directory.update, found, ArrivalMap.perform, held, made, true_and]
        exact ⟨_, agrees⟩
      | ok given =>
        obtain ⟨result, changed⟩ := given
        simp only [Directory.perform, Directory.update, found, ArrivalMap.perform, held, made, true_and]
        have renamed := (mutation.keeps_name entry result changed made).trans named
        exact ⟨_, agrees.exchange named others (some changed) (by simpa using renamed)
          (Finmap.lookup_insert _) fun other apart => Finmap.lookup_insert_of_ne _ apart⟩
  | remove name =>
    cases found : d.split? name with
    | none =>
      simp only [Directory.perform, Directory.remove, found, ArrivalMap.perform, agrees.absent found, true_and]
      exact ⟨arrivals, agrees⟩
    | some cut =>
      obtain ⟨front, entry, back⟩ := cut
      obtain ⟨before, number, behind, rfl, rfl, rfl, held, named, others⟩ := agrees.place found
      simp only [Directory.perform, Directory.remove, found, ArrivalMap.perform, held, true_and]
      exact ⟨_, agrees.exchange named others none (by simp) (Finmap.lookup_erase _ _)
        fun other apart => Finmap.lookup_erase_ne apart⟩

/-- The directory and the map agree after every sequence of operations. This is the run of the simulation. -/
theorem afterAll (operations : List (Σ ρ, Operation α ρ)) :
    ∃ arrivals, Agrees (Directory.afterAll operations) (ArrivalMap.afterAll operations) arrivals := by
  have start : Agrees (Directory.empty : Directory α) {} [] :=
    ⟨rfl, List.nodup_nil, .nil, by simp, by simp⟩
  have from_any : ∀ (d : Directory α) (map : ArrivalMap α) (arrivals : List (Nat × α)), Agrees d map arrivals →
      ∃ arrivals, Agrees (operations.foldl (fun d operation => (d.perform operation.2).2) d)
        (operations.foldl (fun map operation => (map.perform operation.2).2) map) arrivals := by
    induction operations with
    | nil => exact fun d map arrivals agrees => ⟨arrivals, agrees⟩
    | cons operation rest ih =>
      intro d map arrivals agrees
      obtain ⟨_, arrivals', step⟩ := agrees.perform operation.2
      exact ih _ _ arrivals' step
  exact from_any _ _ _ start

theorem size (agrees : Agrees d map arrivals) : d.size = map.entries.keys.card := by
  have keys : map.entries.keys = (d.toList.map Named.name).toFinset := by
    ext name
    rw [Finmap.mem_keys, List.mem_toFinset, ← agrees.contains_iff, Directory.contains_iff, List.mem_map]
  rw [keys, List.toFinset_card_of_nodup agrees.distinct, List.length_map, Directory.size]

/-- What a filter lists is what the map holds, restricted to the condition and in the order of arrival. -/
theorem filter (agrees : Agrees d map arrivals) (condition : α → Bool) :
    map.Enumerates condition (d.filter condition) := by
  refine ⟨arrivals.filter (condition ·.2), ?_, agrees.ordered.filter _, ?_⟩
  · rw [Directory.filter, agrees.list, List.filter_map]
    rfl
  · intro arrival
    rw [List.mem_filter]
    refine and_congr_left fun _ => ?_
    constructor
    · intro member
      exact ⟨_, (agrees.looked_up _ arrival).mpr ⟨member, rfl⟩⟩
    · rintro ⟨name, found⟩
      exact ((agrees.looked_up name arrival).mp found).1

theorem represents (agrees : Agrees d map arrivals) : d.Represents map where
  distinct := agrees.distinct
  result operation := (agrees.perform operation).1
  add_refused entry := by
    rw [(agrees.perform _).1]
    simp only [ArrivalMap.perform]
    split <;> simp_all
  update_finds_nothing name mutation := by
    rw [(agrees.perform _).1, agrees.get, ← Finmap.lookup_eq_none]
    simp only [ArrivalMap.perform]
    cases map.entries.lookup name with
    | none => simp
    | some arrival => cases made : mutation.run arrival.2 <;> simp [made]
  remove_finds_nothing name := by
    rw [(agrees.perform _).1, ← Finmap.lookup_eq_none]
    simp only [ArrivalMap.perform]
    split <;> simp_all
  unchanged_on_error operation e failed := by
    cases operation <;> simp only [Directory.perform] at failed ⊢ <;> split <;> simp_all
  get := agrees.get
  contains := agrees.contains_iff
  size := agrees.size
  isEmpty := by
    rw [Directory.isEmpty, List.isEmpty_iff]
    constructor
    · intro empty
      refine Finmap.ext_lookup fun name => ?_
      rw [Finmap.lookup_empty, Finmap.lookup_eq_none, ← agrees.contains_iff, Directory.contains_iff, empty]
      simp
    · intro empty
      refine List.eq_nil_iff_forall_not_mem.mpr fun entry member => ?_
      have held := (agrees.contains_iff _).mp (Directory.contains_iff.mpr ⟨entry, member, rfl⟩)
      rw [empty] at held
      exact Finmap.notMem_empty held
  list := by simpa [Directory.filter] using agrees.filter fun _ => true
  filter := agrees.filter
  added_at_the_end entry added := by
    simp only [Directory.perform] at added ⊢
    cases result : d.add entry with
    | error e => simp [result] at added
    | ok after => exact (Directory.add_eq_ok_iff.mp result).2
  update_keeps_places name mutation := by
    simp only [Directory.perform]
    cases result : d.update name mutation.run with
    | error e => rfl
    | ok given =>
      obtain ⟨front, entry, back, changed, found, made, list⟩ := Directory.update_eq_ok_iff.mp result
      have before := (Directory.split?_eq_some_iff.mp found).1
      simp only [list, before, List.map_append, List.map_cons, mutation.keeps_name entry given.1 changed made]

end Agrees

/-- After every sequence of operations, on entries of whatever kind, a directory is the finite map that the
same operations make, in the order of arrival. Names stay distinct; every further operation, and every
question, is answered as by the map, where an operation that fails changes nothing; and the lists enumerate
what is there. -/
theorem directory_is_an_insertion_ordered_map (operations : List (Σ ρ, Operation α ρ)) :
    (Directory.afterAll operations).Represents (ArrivalMap.afterAll operations) := by
  obtain ⟨_, agrees⟩ := Agrees.afterAll operations
  exact agrees.represents

end CloudTerminal
