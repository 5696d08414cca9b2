import CloudTerminal.Directory

/-!
What the operations of a directory do at a known place. `lookup_finds_exactly_the_member` reads a directory with
distinct names as a map from names to entries; `removing_the_last_added_restores` says that taking out
an entry that has just been added undoes the addition. `adapt` and `without` change and take out entries by
name alone, and agree with what happens at the place of the name as long as names are distinct.
-/

namespace CloudTerminal

/-- In a list whose elements have distinct keys, the search for a key finds the element that has it. -/
theorem find_of_distinct_keys {α : Type} (key : α → String) (entries : List α)
    (distinct : (entries.map key).Nodup) (name : String) (entry : α) :
    entries.find? (key · == name) = some entry ↔ entry ∈ entries ∧ key entry = name := by
  constructor
  · intro found
    exact ⟨List.mem_of_find?_eq_some found, by simpa using List.find?_some found⟩
  · rintro ⟨member, rfl⟩
    induction entries with
    | nil => cases member
    | cons first rest ih =>
      obtain ⟨fresh, tail⟩ := List.nodup_cons.mp distinct
      rcases List.mem_cons.mp member with rfl | later
      · simp
      · have other : key first ≠ key entry := by
          intro same
          exact fresh (same ▸ List.mem_map_of_mem later)
        have skip : (key first == key entry) = false := by simpa using other
        rw [List.find?_cons, skip]
        exact ih tail later

namespace Directory

variable {α : Type} [Named α] {d : Directory α} {name : String} {entry : α}

/-- As names are distinct, a lookup finds an entry exactly if it is a member with that name. -/
theorem lookup_finds_exactly_the_member (distinct : d.Distinct) :
    d.get? name = some entry ↔ entry ∈ d.toList ∧ Named.name entry = name :=
  find_of_distinct_keys Named.name d.toList distinct name entry

theorem free_iff_no_entry_named :
    d.contains name = false ↔ ∀ other ∈ d.toList, Named.name other ≠ name := by
  rw [← Bool.not_eq_true, contains_iff]
  simp

theorem add_of_free (entry : α) (free : d.contains (Named.name entry) = false) :
    d.add entry = .ok ⟨d.toList ++ [entry]⟩ :=
  add_eq_ok_iff.mpr ⟨free, rfl⟩

theorem split_at_the_last_added (entry : α) (free : d.contains (Named.name entry) = false) :
    (⟨d.toList ++ [entry]⟩ : Directory α).split? (Named.name entry) = some (d.toList, entry, []) :=
  split?_eq_some_iff.mpr ⟨rfl, rfl, free_iff_no_entry_named.mp free⟩

/-- Taking out what was added last gives back the directory from before. This is what rolling back a clone
relies on. -/
theorem removing_the_last_added_restores (entry : α)
    (free : d.contains (Named.name entry) = false) :
    (⟨d.toList ++ [entry]⟩ : Directory α).remove (Named.name entry) = .ok (entry, d) :=
  remove_eq_ok_iff.mpr ⟨_, _, split_at_the_last_added entry free, by simp⟩

/-- No entry before or behind the one at a place has its name. -/
theorem others_are_named_otherwise {front back : List α} (distinct : d.Distinct)
    (list : d.toList = front ++ entry :: back) :
    (∀ other ∈ front, Named.name other ≠ Named.name entry) ∧
      ∀ other ∈ back, Named.name other ≠ Named.name entry := by
  unfold Distinct at distinct
  rw [list, List.map_append, List.map_cons] at distinct
  obtain ⟨_, later, apart⟩ := List.nodup_append.mp distinct
  refine ⟨?_, ?_⟩
  · intro other member
    exact apart _ (List.mem_map_of_mem member) _ List.mem_cons_self
  · intro other member same
    exact (List.nodup_cons.mp later).1 (same ▸ List.mem_map_of_mem member)

/-- The directory in which the entries of a name are what `change` makes of them. -/
def adapt (d : Directory α) (name : String) (change : α → α) : Directory α :=
  ⟨d.toList.map fun entry => if Named.name entry = name then change entry else entry⟩

def without (d : Directory α) (name : String) : Directory α :=
  ⟨d.toList.filter (Named.name · != name)⟩

theorem adapt_at_the_place {front back : List α} (change : α → α) (distinct : d.Distinct)
    (found : d.split? name = some (front, entry, back)) :
    d.adapt name change = ⟨front ++ change entry :: back⟩ := by
  obtain ⟨list, rfl, _⟩ := split?_eq_some_iff.mp found
  obtain ⟨before, behind⟩ := others_are_named_otherwise distinct list
  have fixed : ∀ others : List α, (∀ other ∈ others, Named.name other ≠ Named.name entry) →
      others.map (fun other => if Named.name other = Named.name entry then change other else other) =
        others := by
    intro others apart
    exact (List.map_congr_left fun other member => if_neg (apart other member)).trans (List.map_id _)
  unfold adapt
  rw [list, List.map_append, List.map_cons, fixed front before, fixed back behind, if_pos rfl]

theorem without_at_the_place {front back : List α} (distinct : d.Distinct)
    (found : d.split? name = some (front, entry, back)) : d.without name = ⟨front ++ back⟩ := by
  obtain ⟨list, rfl, _⟩ := split?_eq_some_iff.mp found
  obtain ⟨before, behind⟩ := others_are_named_otherwise distinct list
  have kept : ∀ others : List α, (∀ other ∈ others, Named.name other ≠ Named.name entry) →
      others.filter (Named.name · != Named.name entry) = others := by
    intro others apart
    exact List.filter_eq_self.mpr fun other member => by simpa using apart other member
  unfold without
  rw [list, List.filter_append, List.filter_cons_of_neg (by simp), kept front before, kept back behind]

theorem distinct_adapt {change : α → α} (distinct : d.Distinct)
    (keeps : ∀ entry, Named.name (change entry) = Named.name entry) : (d.adapt name change).Distinct := by
  have names : (d.adapt name change).toList.map Named.name = d.toList.map (Named.name (α := α)) := by
    unfold adapt
    rw [List.map_map]
    refine List.map_congr_left fun entry _ => ?_
    simp only [Function.comp_apply]
    split
    · exact keeps entry
    · rfl
  unfold Distinct
  rw [names]
  exact distinct

theorem distinct_without (distinct : d.Distinct) : (d.without name).Distinct :=
  distinct.sublist (List.filter_sublist.map Named.name)

/-- What holds of all entries and is kept by a change of one of them holds of all entries after it. -/
theorem all_after_change {P : α → Prop} {front back : List α} {changed : α} (all : ∀ entry ∈ d.toList, P entry)
    (found : d.split? name = some (front, entry, back)) (keeps : P entry → P changed) :
    ∀ other ∈ front ++ changed :: back, P other := by
  rw [(split?_eq_some_iff.mp found).1, List.forall_mem_append, List.forall_mem_cons] at all
  rw [List.forall_mem_append, List.forall_mem_cons]
  exact ⟨all.1, keeps all.2.1, all.2.2⟩

theorem all_after_removal {P : α → Prop} {front back : List α} (all : ∀ entry ∈ d.toList, P entry)
    (found : d.split? name = some (front, entry, back)) : ∀ other ∈ front ++ back, P other := by
  rw [(split?_eq_some_iff.mp found).1, List.forall_mem_append, List.forall_mem_cons] at all
  exact List.forall_mem_append.mpr ⟨all.1, all.2.2⟩

theorem size_after_change {front back : List α} (changed : α) (found : d.split? name = some (front, entry, back)) :
    (front ++ changed :: back).length = d.size := by
  rw [size, (split?_eq_some_iff.mp found).1, List.length_append, List.length_append, List.length_cons,
    List.length_cons]

theorem size_after_removal {front back : List α} (found : d.split? name = some (front, entry, back)) :
    (front ++ back).length ≤ d.size := by
  rw [size, (split?_eq_some_iff.mp found).1, List.length_append, List.length_append]
  exact Nat.add_le_add_left (Nat.le_succ _) _

section View

variable {γ : Type} {view : α → γ} {key : γ → String}

/-- Adapting entries adapts what is seen of them, as long as their names are seen. -/
theorem view_of_adapted {change : α → α} {seen : γ → γ} (keyed : ∀ entry, key (view entry) = Named.name entry)
    (changed : ∀ entry, view (change entry) = seen (view entry)) :
    (d.adapt name change).toList.map view =
      (d.toList.map view).map fun v => if key v = name then seen v else v := by
  unfold adapt
  rw [List.map_map, List.map_map]
  refine List.map_congr_left fun entry _ => ?_
  simp only [Function.comp_apply, keyed]
  split
  · exact changed entry
  · rfl

/-- What is seen of the entries that remain is what was seen of all, less what has the name that was taken
out. -/
theorem view_of_remaining (keyed : ∀ entry, key (view entry) = Named.name entry) :
    (d.without name).toList.map view = (d.toList.map view).filter (key · != name) := by
  unfold without
  rw [List.filter_map]
  simp only [Function.comp_def, keyed]

end View

/-- Which names are held depends on the names alone. -/
theorem contains_of_same_names {β : Type} [Named β] {other : Directory β}
    (names : d.toList.map Named.name = other.toList.map Named.name) (name : String) :
    d.contains name = other.contains name := by
  rw [Bool.eq_iff_iff, contains_iff, contains_iff, ← List.mem_map, ← List.mem_map, names]

theorem held_iff_split : d.contains name = true ↔ ∃ front entry back,
    d.split? name = some (front, entry, back) := by
  rw [contains_iff]
  constructor
  · rintro ⟨entry, member, named⟩
    cases found : d.split? name with
    | none => exact absurd named (split?_eq_none_iff.mp found entry member)
    | some cut => exact ⟨cut.1, cut.2.1, cut.2.2, rfl⟩
  · rintro ⟨front, entry, back, found⟩
    obtain ⟨list, named, _⟩ := split?_eq_some_iff.mp found
    exact ⟨entry, by simp [list], named⟩

/-- In a directory with distinct names, the place of a member is found by its name. -/
theorem split_at_the_member (distinct : d.Distinct) (member : entry ∈ d.toList) :
    ∃ front back, d.split? (Named.name entry) = some (front, entry, back) := by
  obtain ⟨front, back, list⟩ := List.append_of_mem member
  exact ⟨front, back, split?_eq_some_iff.mpr
    ⟨list, rfl, (others_are_named_otherwise distinct list).1⟩⟩

end Directory

end CloudTerminal
