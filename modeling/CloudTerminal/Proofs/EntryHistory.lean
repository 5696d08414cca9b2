import Mathlib.Data.List.ReduceOption
import CloudTerminal.Proofs.Change

/-!
The history of the entries of a kind. An entry comes in, which is the end of one of its name that was there
before; the entry of a name is changed in its place; or it goes. What there is after some events can be read
off them in two ways: event by event (`EntryEvent.act`), or by looking for the entries that have come in and
that nothing has ended since, each as the changes since then have made it (`survivors`, `mem_survivors_iff`).
Both come to the same (`survivors_after_one_more`), so that a run whose lines tell what they do to the entries
leaves just those that survive its events (`Session.run_tells_a_story`).
-/

namespace CloudTerminal

/-- Entries that have a history: what they are like when they come in, and what a change of one of the given
ways makes of them. Their names stay. -/
class Historic (α : Type) (Way : outParam Type) [Named α] where
  fresh : α → α
  apply : Way → α → α
  name_fresh : ∀ entry, Named.name (fresh entry) = Named.name entry
  name_apply : ∀ way entry, Named.name (apply way entry) = Named.name entry

/-- What can happen to an entry. -/
inductive EntryEvent (α Way : Type) where
  | entered (entry : α)
  | changed (name : String) (way : Way)
  | left (name : String)

namespace EntryEvent

private theorem entered_first_or_later {α Way : Type} {first : EntryEvent α Way}
    {rest : List (EntryEvent α Way)} {P : α → List (EntryEvent α Way) → Prop} :
    (∃ before entry later, first :: rest = before ++ entered entry :: later ∧ P entry later) ↔
      (∃ entry, first = entered entry ∧ P entry rest) ∨
        ∃ before entry later, rest = before ++ entered entry :: later ∧ P entry later := by
  constructor
  · rintro ⟨before, entry, later, cut, holds⟩
    cases before with
    | nil =>
      obtain ⟨rfl, rfl⟩ := List.cons.inj cut
      exact .inl ⟨entry, rfl, holds⟩
    | cons event before => exact .inr ⟨before, entry, later, (List.cons.inj cut).2, holds⟩
  · rintro (⟨entry, rfl, holds⟩ | ⟨before, entry, later, rfl, holds⟩)
    · exact ⟨[], entry, rest, rfl, holds⟩
    · exact ⟨first :: before, entry, later, rfl, holds⟩

variable {α Way : Type} [Named α]

/-- Whether the event is the end of an entry of this name that was there before. -/
def ends (name : String) : EntryEvent α Way → Bool
  | entered entry => Named.name entry == name
  | changed _ _ => false
  | left gone => gone == name

/-- The way in which the event changes the entry of this name. -/
def way? (name : String) : EntryEvent α Way → Option Way
  | entered _ => none
  | changed other way => if other = name then some way else none
  | left _ => none

variable [Historic α Way]

/-- What an event makes of the entries that there are. -/
def act (entries : List α) : EntryEvent α Way → List α
  | entered entry => entries.filter (Named.name · != Named.name entry) ++ [Historic.fresh entry]
  | changed name way => entries.map fun entry =>
    if Named.name entry = name then Historic.apply way entry else entry
  | left name => entries.filter (Named.name · != name)

/-- An entry that came in, as the events after that have changed it. -/
def outcome (entry : α) (later : List (EntryEvent α Way)) : α :=
  (later.filterMap (way? (Named.name entry))).foldl (fun entry way => Historic.apply way entry)
    (Historic.fresh entry)

/-- The entries that have come in and that nothing has ended since. -/
def survivors : List (EntryEvent α Way) → List α
  | [] => []
  | entered entry :: later =>
    if later.any (ends (Named.name entry)) then survivors later else outcome entry later :: survivors later
  | _ :: later => survivors later

/-- An entry that comes under a free name replaces nothing, and is added in its fresh form. -/
theorem act_under_a_free_name {d : Directory α} (entry : α) (free : d.contains (Named.name entry) = false) :
    act d.toList (entered entry : EntryEvent α Way) = d.toList ++ [Historic.fresh entry] := by
  have others : d.toList.filter (Named.name · != Named.name entry) = d.toList :=
    List.filter_eq_self.mpr fun other member =>
      bne_iff_ne.mpr (Directory.free_iff_no_entry_named.mp free other member)
  rw [act, others]

variable {entry : α} {later : List (EntryEvent α Way)}

/-- No change gives an entry another name. -/
theorem name_of_outcome : Named.name (outcome entry later) = Named.name entry := by
  have kept (ways : List Way) (start : α) :
      Named.name (ways.foldl (fun entry way => Historic.apply way entry) start) = Named.name start := by
    induction ways generalizing start with
    | nil => rfl
    | cons way rest ih => exact (ih _).trans (Historic.name_apply way start)
  exact (kept _ _).trans (Historic.name_fresh entry)

/-- A change to its name is the last one that an entry has gone through. -/
theorem outcome_after_a_change (way : Way) :
    outcome entry (later ++ [changed (Named.name entry) way]) = Historic.apply way (outcome entry later) := by
  simp [outcome, way?]

theorem outcome_after_another (entry : α) (later : List (EntryEvent α Way)) (event : EntryEvent α Way)
    (other : way? (Named.name entry) event = none) :
    outcome entry (later ++ [event]) = outcome entry later := by
  simp [outcome, other]

/-- One more event acts on what survives the events before it. -/
theorem survivors_after_one_more (events : List (EntryEvent α Way)) (event : EntryEvent α Way) :
    survivors (events ++ [event]) = event.act (survivors events) := by
  induction events with
  | nil => cases event <;> rfl
  | cons first rest ih =>
    cases first with
    | changed name way => exact ih
    | left name => exact ih
    | entered entry =>
      rw [List.cons_append, survivors, survivors, List.any_append, ih]
      cases ended : rest.any (ends (Named.name entry)) with
      | true => simp
      | false =>
        -- The entry is there so far, and the event ends it, changes it or is about another one.
        cases event with
        | entered other =>
          have same_outcome := outcome_after_another entry rest (entered other) rfl
          by_cases same : Named.name other = Named.name entry
          · simp [ends, act, same, name_of_outcome]
          · simp [ends, act, same, Ne.symm same, name_of_outcome, same_outcome]
        | changed name way =>
          by_cases same : name = Named.name entry
          · subst same
            simp [ends, act, name_of_outcome, outcome_after_a_change]
          · have other : way? (Named.name entry) (changed name way : EntryEvent α Way) = none := if_neg same
            simp [ends, act, Ne.symm same, name_of_outcome, outcome_after_another entry rest _ other]
        | left name =>
          have same_outcome := outcome_after_another entry rest (left name) rfl
          by_cases same : name = Named.name entry
          · simp [ends, act, same, name_of_outcome]
          · simp [ends, act, same, Ne.symm same, name_of_outcome, same_outcome]

/-- There is an entry exactly if an event has brought one in and none has ended it since, and it is as the
events since then have made that one. -/
theorem mem_survivors_iff (events : List (EntryEvent α Way)) (entry : α) :
    entry ∈ survivors events ↔ ∃ before first later, events = before ++ entered first :: later ∧
      later.any (ends (Named.name first)) = false ∧ entry = outcome first later := by
  induction events with
  | nil => simp [survivors]
  | cons first rest ih =>
    rw [entered_first_or_later, ← ih]
    cases first with
    | changed name way => simp [survivors]
    | left name => simp [survivors]
    | entered fresh =>
      rw [survivors]
      simp only [entered.injEq, exists_eq_left']
      cases ended : rest.any (ends (Named.name fresh)) <;> simp

end EntryEvent

namespace Session

variable {α Way : Type} [Named α] [Historic α Way]

/-- If each line tells one thing about the entries of a kind, and that is what it has made of them, then a run
tells a story of events, and there are just the entries that survive them. -/
theorem run_tells_a_story {Tells : Moment → Option (EntryEvent α Way) → Prop} (session : Session)
    (ready : session.Ready) (entries : World → List α)
    (unticked : ∀ world : World, entries world.tick.2 = entries world)
    (step : ∀ (clock : String) (world next : World) (words : Line) (result : Except Error Reply),
      DistinctNames world → LineEffect ⟨session.config, clock⟩ world words (result, next) →
      ∃ told, Tells ⟨clock, words, result⟩ told ∧ entries next = told.elim (entries world) (·.act (entries world)))
    (nothing : entries session.world = []) (inputs : List Input) :
    ∃ events, List.Forall₂ Tells (session.chronicle inputs) events ∧
      entries (session.after inputs).world = EntryEvent.survivors events.reduceOption := by
  refine (session.chronicle_keeps inputs
    (P := fun past world => DistinctNames world ∧
      ∃ events, List.Forall₂ Tells past events ∧ entries world = EntryEvent.survivors events.reduceOption)
    ready.terminal ⟨ready.distinct, [], .nil, nothing⟩ ?_).2
  intro past world clock words result next effect ⟨distinct, events, tells, there⟩
  have found : DistinctNames world.tick.2 := ⟨distinct.instances, distinct.keys⟩
  obtain ⟨told, tells_now, made⟩ := step clock world.tick.2 next words result found effect
  refine ⟨line_keeps_names_distinct found effect, events ++ [told],
    List.rel_append tells (.cons tells_now .nil), ?_⟩
  rw [made, unticked, there, List.reduceOption_append]
  cases told with
  | none => simp
  | some event => exact (EntryEvent.survivors_after_one_more _ event).symm

end Session

end CloudTerminal
