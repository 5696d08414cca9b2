import Mathlib.Algebra.GroupWithZero.Nat
import CloudTerminal.Proofs.Change
import CloudTerminal.Proofs.Listings

/-!
The accounts of a session. A line that creates or deletes an instance books that under the type of the
instance, and a line that generates or removes a key books it, too; no other line books anything
(`World.booking?`). What the status line shows is the balance of these books, whatever names have been given,
freed and given again (`books_are_balanced`), and it is also what the listings count
(`status_line_is_the_balance_of_the_books`).
-/

namespace CloudTerminal

/-- What is entered into the books. -/
inductive Booking where
  | created (type : InstanceType)
  | deleted (type : InstanceType)
  | generated
  | removed
  deriving DecidableEq

namespace Booking

/-- The words of the lines that are booked when they are carried out. -/
def words : List String := ["create", "delete", "ssh-keygen", "ssh-remove"]

end Booking

/-- What is booked for a line in the world that it finds, where the instance to be deleted still is. -/
def World.booking? (world : World) : Exchange → Option Booking
  | (⟨"create", ["instance", _, word]⟩, .ok _) => (InstanceType.ofText? word).map .created
  | (⟨"delete", ["instance", name]⟩, .ok _) =>
    (world.store.instances.get? name).map fun i => .deleted i.type
  | (⟨"ssh-keygen", _⟩, .ok _) => some .generated
  | (⟨"ssh-remove", _⟩, .ok _) => some .removed
  | _ => none

/-- All that is booked in a run. -/
def Session.books (session : Session) : List Input → List Booking
  | [] => []
  | input :: rest =>
    ((session.exchange? input).bind session.found.booking?).toList ++ books (session.take input) rest

/-- The counts of two stores differ by what is booked between them. -/
structure Store.Balanced (before : Store) (booked : List Booking) (after : Store) : Prop where
  instances : ∀ type, after.countOf type + booked.count (.deleted type) =
    before.countOf type + booked.count (.created type)
  keys : after.keys.size + booked.count .removed = before.keys.size + booked.count .generated

namespace Store

variable {before between after : Store} {first second : List Booking}

theorem countOf_eq_countP (store : Store) (type : InstanceType) :
    store.countOf type = store.instances.toList.countP (·.type == type) :=
  List.countP_eq_length_filter.symm

theorem nothing_booked (instances : after.instances = before.instances) (keys : after.keys = before.keys) :
    before.Balanced [] after :=
  ⟨fun type => by rw [countOf, countOf, instances]; rfl, by rw [keys]; rfl⟩

theorem Balanced.append (earlier : before.Balanced first between) (later : between.Balanced second after) :
    before.Balanced (first ++ second) after := by
  refine ⟨fun type => ?_, ?_⟩
  · have one := earlier.instances type
    have other := later.instances type
    rw [List.count_append, List.count_append]
    omega
  · have one := earlier.keys
    have other := later.keys
    rw [List.count_append, List.count_append]
    omega

/-- As long as nothing is booked, the same is shown. -/
theorem Balanced.same_summary (balanced : before.Balanced [] after) : after.summary = before.summary := by
  have instances : after.countOf = before.countOf := funext fun type => by simpa using balanced.instances type
  have keys : after.keys.size = before.keys.size := by simpa using balanced.keys
  rw [summary, summary, instances, keys]

theorem text_of_summary (store : Store) : store.summary.text =
    s!"Compute: {store.countOf .compute}  DB: {store.countOf .database}  Storage: {store.countOf .storage}  " ++
      s!"Net: {store.countOf .network}  Sec: {store.countOf .security}  SSH: {store.keys.size}" := by
  simp [Summary.text, summary, InstanceType.all, InstanceType.label, String.join, ← String.toList_inj, toString]

/-- Every instance has one of the types. -/
theorem counts_add_up (store : Store) : (InstanceType.all.map store.countOf).sum = store.instances.size := by
  have each : InstanceType.all.map store.countOf =
      InstanceType.all.map fun type => store.instances.toList.countP (·.type == type) :=
    List.map_congr_left fun type _ => store.countOf_eq_countP type
  rw [each, Directory.size]
  induction store.instances.toList with
  | nil => rfl
  | cons i rest ih =>
    simp only [InstanceType.all, List.map_cons, List.map_nil, List.sum_cons, List.sum_nil, List.countP_cons,
      List.length_cons] at ih ⊢
    cases i.type <;> simp <;> omega

end Store

section Line

variable {setting : Setting} {world next : World} {words : Line} {result : Except Error Reply}

/-- A passing command ends clones and nothing else, so nothing is booked for it. -/
theorem passing_is_balanced (world : World) : world.store.Balanced [] world.tick.2.store :=
  Store.nothing_booked rfl rfl

theorem only_booked_words_are_booked (other : words.command ∉ Booking.words) :
    world.booking? (words, result) = none := by
  unfold World.booking?
  split <;> simp_all [Booking.words]

theorem quiet_line_is_not_booked (quiet : words.changes = false) : world.booking? (words, result) = none := by
  apply only_booked_words_are_booked
  intro booked
  simp only [Booking.words, List.mem_cons, List.not_mem_nil, or_false] at booked
  rcases booked with command | command | command | command <;> simp [Line.changes, command] at quiet

/-- A line changes the counts by what is booked for it. -/
theorem line_is_balanced (distinct : DistinctNames world)
    (effect : LineEffect setting world words (result, next)) :
    world.store.Balanced (world.booking? (words, result)).toList next.store := by
  cases effect with
  | refused e =>
    have nothing : world.booking? (words, .error e) = none := by
      unfold World.booking?
      split <;> simp_all
    rw [nothing]
    exact Store.nothing_booked rfl rfl
  | look reply quiet =>
    rw [quiet_line_is_not_booked quiet]
    exact Store.nothing_booked rfl rfl
  | create name type said free =>
    subst said
    have booked : world.booking? (⟨"create", ["instance", name, type.text]⟩,
        .ok (.text (Instance.confirmation type name world.ids.instanceId.1))) = some (.created type) := by
      simp [World.booking?, InstanceType.ofText?_text]
    rw [booked]
    refine ⟨fun other => ?_, rfl⟩
    simp [Store.countOf_eq_countP, List.countP_cons, List.count_cons, Instance.launch]
  | power reply name power front back i said found other =>
    have unbooked : power.verb ∉ Booking.words := by cases power <;> decide
    rw [only_booked_words_are_booked (by rwa [said])]
    refine ⟨fun type => ?_, rfl⟩
    obtain ⟨list, _, _⟩ := Directory.split?_eq_some_iff.mp found
    simp [Store.countOf_eq_countP, list, List.countP_cons]
  | delete reply name front back i said found =>
    subst said
    obtain ⟨list, named, _⟩ := Directory.split?_eq_some_iff.mp found
    have held : world.store.instances.get? name = some i :=
      (Directory.lookup_finds_exactly_the_member distinct.instances).mpr ⟨by simp [list], named⟩
    have booked : world.booking? (⟨"delete", ["instance", name]⟩, .ok reply) = some (.deleted i.type) := by
      simp [World.booking?, held]
    rw [booked]
    refine ⟨fun type => ?_, rfl⟩
    simp only [Store.countOf_eq_countP, list, List.countP_append, List.countP_cons, Option.toList_some,
      List.count_singleton]
    by_cases same : i.type = type
    · simp [same, Nat.add_assoc]
    · simp [same]
  | generate name name? key said named free made =>
    subst said
    exact ⟨fun _ => rfl, by simp [World.booking?, Directory.size]⟩
  | mark reply name front back key said found =>
    subst said
    obtain ⟨list, _, _⟩ := Directory.split?_eq_some_iff.mp found
    exact ⟨fun _ => rfl, by simp [World.booking?, Directory.size, list]⟩
  | discard reply name front back key said found =>
    subst said
    obtain ⟨list, _, _⟩ := Directory.split?_eq_some_iff.mp found
    have booked : world.booking? (⟨"ssh-remove", [name]⟩, .ok reply) = some .removed := rfl
    rw [booked]
    refine ⟨fun _ => rfl, ?_⟩
    simp [Directory.size, list, Nat.add_assoc]
  | clone url name name? said named clear free idle =>
    subst said
    exact Store.nothing_booked rfl rfl

end Line

namespace Session

variable {session : Session} {clock line : String}

/-- One input balances: what its line books is just what it adds to the store and takes from it. -/
theorem take_is_balanced (ready : session.Ready) (input : Input) :
    session.world.store.Balanced ((session.exchange? input).bind session.found.booking?).toList
      (session.take input).world.store := by
  cases said : session.exchange? input with
  | none =>
    rw [take_of_blank session input (Option.map_eq_none_iff.mp said)]
    exact Store.nothing_booked rfl rfl
  | some exchange =>
    have effect := exchange_has_effect session input ready.terminal said
    exact (passing_is_balanced session.world).append (line_is_balanced (found_has_distinct_names ready) effect)

/-- Over a whole run the books balance, by induction on its inputs. -/
theorem books_are_balanced (ready : session.Ready) (inputs : List Input) :
    session.world.store.Balanced (session.books inputs) (session.after inputs).world.store := by
  induction inputs generalizing session with
  | nil => exact Store.nothing_booked rfl rfl
  | cons input rest ih => exact (take_is_balanced ready input).append (ih (take_is_ready ready))

/-- A line whose command is not among those that are booked leaves the status line as it was. -/
theorem other_lines_keep_the_summary (ready : session.Ready) {input : Input}
    (other : ∀ words, Line.parse input.line = some words → words.command ∉ Booking.words) :
    (session.take input).summary = session.summary := by
  have balanced := take_is_balanced ready input
  have nothing : (session.exchange? input).bind session.found.booking? = none := by
    unfold exchange?
    cases parsed : Line.parse input.line with
    | none => rfl
    | some words => exact only_booked_words_are_booked (other words parsed)
  rw [nothing] at balanced
  exact balanced.same_summary

/-- The listing of all instances, or of those of one type, has a row for each of them. -/
theorem lists_as_many_rows (terminal : session.registry = Terminal.registry)
    (listable : session.found.Listable fun _ => True) (type? : Option InstanceType)
    (parsed : Line.parse line = some ⟨"instances", "list" :: (type?.map InstanceType.text).toList⟩) :
    ∃ rows, session.Lists clock line rows ∧
      rows.length = (session.world.store.instances.filter fun i => type?.all (i.type == ·)).length := by
  have member : Instance.instances ∈ Terminal.commands := by simp [Terminal.commands, Instance.commands]
  have ran : Instance.instances.run ⟨session.config, clock⟩ session.found
      ("list" :: (type?.map InstanceType.text).toList) =
      (.ok (Instance.listing session.found.store type?), session.found) := by
    cases type? with
    | none => rfl
    | some type => cases type <;> rfl
  have other : Instance.instances.name ≠ "clear" := by decide
  have listed : session.Lists clock line (Text.tableCells (Instance.listing session.found.store type?).rendered) :=
    lists_its_answer terminal member other parsed ran
  refine ⟨_, listed, ?_⟩
  rw [instances_read_back listable type?, List.length_map]
  rfl

end Session

/-- After every run, the status line shows for each type how many instances of it have been created less how
many have been deleted, and how many keys have been generated less how many have been removed. The listing of
a type has as many rows, and the listing of all instances as many as the five numbers together. No passing
command changes the numbers, nor does any line but those that are booked; lines about repositories, hosts and
the terminal are not. -/
theorem status_line_is_the_balance_of_the_books (config : Config) (entropy : Random.Source) (inputs : List Input) :
    let start := Session.start config entropy
    let session := start.after inputs
    let books := start.books inputs
    ∃ (shown : InstanceType → Nat) (keys : Nat),
      session.summary = { instances := InstanceType.all.map fun type => (type, shown type), keys } ∧
      session.summary.text = s!"Compute: {shown .compute}  DB: {shown .database}  Storage: {shown .storage}  " ++
        s!"Net: {shown .network}  Sec: {shown .security}  SSH: {keys}" ∧
      (∀ type, shown type + books.count (.deleted type) = books.count (.created type)) ∧
      keys + books.count .removed = books.count .generated ∧
      (∀ clock line type, Line.parse line = some ⟨"instances", ["list", InstanceType.text type]⟩ →
        ∃ rows, session.Lists clock line rows ∧ rows.length = shown type) ∧
      (∀ clock line, Line.parse line = some ⟨"instances", ["list"]⟩ →
        ∃ rows, session.Lists clock line rows ∧ rows.length = (InstanceType.all.map shown).sum) ∧
      session.found.store.summary = session.summary ∧
      ∀ input, (∀ words, Line.parse input.line = some words → words.command ∉ Booking.words) →
        (session.take input).summary = session.summary := by
  intro start session books
  have fresh : start.Ready := Session.start_is_ready config entropy
  have ready : session.Ready := Session.after_is_ready fresh inputs
  have balanced : start.world.store.Balanced books session.world.store := Session.books_are_balanced fresh inputs
  have listable : session.found.Listable fun _ => True :=
    (World.Listable.of_run config entropy fun _ _ => trivial).tick
  refine ⟨session.world.store.countOf, session.world.store.keys.size, rfl,
    session.world.store.text_of_summary, ?_, ?_, ?_, ?_, ?_, ?_⟩
  · intro type
    simpa [start, Session.start, Store.countOf, Directory.filter] using balanced.instances type
  · simpa [start, Session.start, Directory.size] using balanced.keys
  · intro clock line type parsed
    exact Session.lists_as_many_rows ready.terminal listable (some type) parsed
  · intro clock line parsed
    obtain ⟨rows, lists, counted⟩ : ∃ rows, session.Lists clock line rows ∧ rows.length = _ :=
      Session.lists_as_many_rows ready.terminal listable none parsed
    refine ⟨rows, lists, ?_⟩
    rw [counted, Store.counts_add_up, Directory.size]
    exact congrArg List.length (List.filter_eq_self.mpr fun _ _ => rfl)
  · exact (passing_is_balanced session.world).same_summary
  · intro input other
    exact Session.other_lines_keep_the_summary ready other

/-- A name that is given again counts for the type that it is given for. -/
theorem name_given_again_counts_for_its_type :
    let start := Session.start {} 7
    let inputs : List Input := [⟨"08:00", "create instance web compute"⟩, ⟨"08:01", "delete instance web"⟩,
      ⟨"08:02", "create instance web storage"⟩]
    let line := "instances list storage"
    start.books inputs = [.created .compute, .deleted .compute, .created .storage] ∧
      Line.parse line = some ⟨"instances", ["list", "storage"]⟩ ∧
      ∃ rows, (start.after inputs).Lists "08:03" line rows ∧ rows.length = 1 := by
  intro start inputs line
  have books : start.books inputs = [.created .compute, .deleted .compute, .created .storage] := by decide +kernel
  have parsed : Line.parse line = some ⟨"instances", ["list", "storage"]⟩ := by decide
  obtain ⟨shown, keys, _, _, balance, _, lists, _⟩ := status_line_is_the_balance_of_the_books {} 7 inputs
  obtain ⟨rows, listed, counted⟩ := lists "08:03" line .storage parsed
  have one := balance .storage
  rw [show (Session.start {} 7).books inputs = _ from books] at one
  exact ⟨books, parsed, rows, listed, counted.trans one⟩

end CloudTerminal
